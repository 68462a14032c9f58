import FieldWord.Value
import FieldWord.Proofs.Bits
import FieldWord.Proofs.RoundTrip

/-!
# What is displayed

Without a layout a value is displayed as the canonical numeral of its integer. Its digits are all
written before the text is made of them, and no word has more digits than the buffer has places, so
there is always a text. The number of hexadecimal digits is known from the leading zero bits alone.

## Key results

- `Word256.numeral?_eq_format`: every word has a text in both radices
- `Word256.format_decimal_eq_numeral`: which text that is, how it comes about, and that the types
  share it
- `Word256.format_hexadecimal_eq_numeral`: the same in hexadecimal, and how long the text is
-/

namespace FieldWord.Word256

open Radix

/-! ## Both radices -/

/-- `format` without a layout writes the numeral. -/
private theorem toList_format_plain (w : Word256) (radix : Radix) :
    (w.format radix {}).toList = Nat.toDigits radix.base.toNat w.toNat := by
  rw [toList_format_unpadded]
  rfl

/-- `numeral?` is what `format` writes without a layout. -/
theorem numeral?_eq_format (w : Word256) (radix : Radix) :
    w.numeral? radix = some (w.format radix {}) := by
  rw [numeral?_eq, Option.some.injEq, ← String.toList_inj, String.toList_ofList,
    toList_format_plain]

/-- `format` without a layout writes the canonical numeral of the word. -/
private theorem isNumeral_format (w : Word256) (radix : Radix) :
    radix.IsNumeral (w.format radix {}).toList ∧
      radix.value (w.format radix {}).toList = w.toNat := by
  rw [toList_format_plain]
  exact ⟨radix.isNumeral_toDigits w.toNat, radix.value_toDigits w.toNat⟩

/-- `format` writes a zero for no word but zero. -/
private theorem format_eq_zero_iff {w : Word256} {radix : Radix} :
    w.format radix {} = "0" ↔ w.toNat = 0 := by
  constructor
  · intro htext
    have hvalue := (w.isNumeral_format radix).2
    rw [htext] at hvalue
    rw [← hvalue]
    exact radix.value_zero_cons []
  · intro hw
    rw [← String.toList_inj, toList_format_plain, hw, Nat.toDigits_zero]
    rfl

/-! ## Decimal -/

/-- `decimalChars` of a word other than zero is what `format` writes. -/
private theorem ofList_decimalChars {w : Word256} (hw : w.toNat ≠ 0) :
    String.ofList (decimalChars w.toNat) = w.format .decimal {} := by
  rw [← String.toList_inj, String.toList_ofList, decimalChars_eq_toDigits hw, toList_format_plain]
  rfl

/-- `format` writes a word as its canonical decimal numeral: digits that denote it, without a zero
    in front, or the single zero. The writer takes one turn for each digit and ends after at most 78
    turns, in each of which there was a place for the digit; it has written the characters from `0`
    to `9` only, and unless the word is zero, which is displayed without it, they are the text. So
    there is a text for every word. Bounded words and field elements are displayed as their words.
    -/
theorem format_decimal_eq_numeral :
    (∀ w : Word256,
      (decimal.IsNumeral (w.format .decimal {}).toList ∧
        decimal.value (w.format .decimal {}).toList = w.toNat ∧
        (w.toNat = 0 → w.format .decimal {} = "0")) ∧
      (∃ last, DecimalWriter.Turns (Nat.digits 10 w.toNat).length (.new w) last ∧
        (DecimalWriter.new w).run? = some last ∧
        last.start + (Nat.digits 10 w.toNat).length = 78 ∧
        (∀ c ∈ last.written, '0'.toUInt8 ≤ c ∧ c ≤ '9'.toUInt8) ∧
        (w.toNat ≠ 0 → (Nat.digits 10 w.toNat).length = (w.format .decimal {}).length ∧
          last.text? = some (w.format .decimal {}))) ∧
      w.numeral? .decimal = some (w.format .decimal {})) ∧
    (∀ (u : Word248) (layout : Layout), u.format .decimal layout = u.word.format .decimal layout) ∧
    ∀ (x : Felt) (layout : Layout), x.format .decimal layout = x.word.format .decimal layout := by
  refine ⟨?_, fun _ _ => rfl, fun _ _ => rfl⟩
  intro w
  obtain ⟨hnumeral, hvalue⟩ := w.isNumeral_format .decimal
  refine ⟨⟨hnumeral, hvalue, format_eq_zero_iff.mpr⟩, ?_, w.numeral?_eq_format .decimal⟩
  -- This holds of zero as well, for which the writer would take no turn.
  obtain ⟨last, hturns, hstart, hwritten⟩ := DecimalWriter.exists_turns_new w
  refine ⟨last, hturns, hturns.run?_eq, hstart, ?_, ?_⟩
  · intro c hc
    rw [hwritten] at hc
    exact toUInt8_mem_decimalChars hc
  · intro hw
    rw [← ofList_decimalChars hw, String.length_ofList, length_decimalChars]
    exact ⟨rfl, DecimalWriter.text?_of_written hwritten⟩

/-- The digits of `max` fill the buffer. -/
theorem format_decimal_eq_numeral_max :
    zero.format .decimal {} = "0" ∧
      ∃ last, DecimalWriter.Turns 78 (.new max) last ∧ last.start = 0 ∧
        (max.format .decimal {}).length = 78 ∧ last.text? = some (max.format .decimal {}) := by
  have hmax : max.toNat ≠ 0 := by decide
  have hdigits : (Nat.digits 10 max.toNat).length = 78 := by
    rw [show max.toNat = 2 ^ 256 - 1 by decide]
    norm_num
  obtain ⟨-, -, hzero⟩ := (format_decimal_eq_numeral.1 zero).1
  obtain ⟨last, hturns, -, hstart, -, htext⟩ := (format_decimal_eq_numeral.1 max).2.1
  obtain ⟨hlength, htext⟩ := htext hmax
  rw [hdigits] at hturns hstart hlength
  exact ⟨hzero toNat_zero, last, hturns, by omega, hlength.symm, htext⟩

/-! ## Hexadecimal -/

/-- `format` writes a hexadecimal digit for every four bits from the first one bit on, counted up to
    a whole digit, and one for zero. -/
theorem length_format_hexadecimal (w : Word256) :
    (w.format .hexadecimal {}).length = Max.max 1 ((256 - w.leadingZeros + 3) / 4) := by
  have hbits : w.toNat.size = 256 - w.leadingZeros := by
    have h := w.leadingZeros_add_size
    omega
  rw [← String.length_toList, toList_format_plain, ← hbits]
  exact length_toDigits_sixteen w.toNat

/-- `format` puts the marker in front of the same text. -/
theorem format_hexadecimal_marked (w : Word256) :
    w.format .hexadecimal { marked := true } = "0x" ++ w.format .hexadecimal {} := by
  rw [← String.toList_inj, String.toList_append, toList_format_unpadded, toList_format_plain]
  rfl

/-- `format` writes a word in hexadecimal as its canonical numeral: lower-case digits that denote
    it, without a zero in front, or the single zero. There are one to 64 of them, which is one for
    every four bits behind the leading zeros, rounded up, and one for zero. The marked text is the
    same behind the marker. There is a text for every word, and bounded words and field elements are
    displayed as their words. -/
theorem format_hexadecimal_eq_numeral :
    (∀ w : Word256,
      (hexadecimal.IsNumeral (w.format .hexadecimal {}).toList ∧
        hexadecimal.value (w.format .hexadecimal {}).toList = w.toNat ∧
        (w.format .hexadecimal {} = "0" ↔ w.toNat = 0)) ∧
      (1 ≤ (w.format .hexadecimal {}).length ∧ (w.format .hexadecimal {}).length ≤ 64 ∧
        (w.format .hexadecimal {}).length = Max.max 1 ((256 - w.leadingZeros + 3) / 4)) ∧
      w.format .hexadecimal { marked := true } = "0x" ++ w.format .hexadecimal {} ∧
      w.numeral? .hexadecimal = some (w.format .hexadecimal {})) ∧
    (∀ (u : Word248) (layout : Layout),
      u.format .hexadecimal layout = u.word.format .hexadecimal layout) ∧
    ∀ (x : Felt) (layout : Layout),
      x.format .hexadecimal layout = x.word.format .hexadecimal layout := by
  refine ⟨?_, fun _ _ => rfl, fun _ _ => rfl⟩
  intro w
  obtain ⟨hnumeral, hvalue⟩ := w.isNumeral_format .hexadecimal
  have hlength := w.length_format_hexadecimal
  refine ⟨⟨hnumeral, hvalue, format_eq_zero_iff⟩, ⟨?_, ?_, hlength⟩, w.format_hexadecimal_marked,
    w.numeral?_eq_format .hexadecimal⟩
  · omega
  · -- All 256 bits together make 64 digits.
    omega

end FieldWord.Word256

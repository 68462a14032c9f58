import FieldWord.Word256.Text
import FieldWord.Proofs.Decimal
import FieldWord.Proofs.Radix

/-!
# Numerals

The canonical numeral of an integer has lower-case digits and no leading zero, except that zero is
written with one. There is exactly one for every integer, and it is what is written for a word.

## Key results

- `IsNumeral.eq_toDigits`, `isNumeral_toDigits`, `value_toDigits`: one canonical numeral for every
  integer
- `Word256.isNumeral_drop_zeros`: digits become a numeral of the same integer when zeros in front
  are dropped
- `Word256.numeral?_eq`: repeated division by ten and the trimmed hexadecimal digits both give it,
  and never fail
-/

namespace FieldWord.Radix

/-- Lower-case digits without a leading zero, except for zero itself. -/
def IsNumeral (radix : Radix) (cs : List Char) : Prop :=
  cs ≠ [] ∧ (∀ c ∈ cs, c ∈ radix.alphabet) ∧ (cs.head? = some '0' → cs = ['0'])

/-! ## Digits as characters -/

/-- `Nat.digitChar` writes a digit by its place in the alphabet. -/
private theorem digitChar_spec (radix : Radix) : ∀ d < radix.base.toNat,
    Nat.digitChar d ∈ radix.alphabet ∧ radix.place? (Nat.digitChar d) = some d := by
  cases radix <;> decide

/-- `Nat.digitChar` writes characters of the alphabet. -/
private theorem digitChar_mem_alphabet {radix : Radix} {d : Nat} (hd : d < radix.base.toNat) :
    Nat.digitChar d ∈ radix.alphabet :=
  (radix.digitChar_spec d hd).1

/-- `place?` finds what `Nat.digitChar` writes. -/
private theorem place?_digitChar {radix : Radix} {d : Nat} (hd : d < radix.base.toNat) :
    radix.place? (Nat.digitChar d) = some d :=
  (radix.digitChar_spec d hd).2

/-- `Nat.digitChar` writes every character of the alphabet. -/
private theorem eq_digitChar_of_mem_alphabet {radix : Radix} {c : Char} (hc : c ∈ radix.alphabet) :
    ∃ d < radix.base.toNat, c = Nat.digitChar d := by
  have hall : radix.alphabet.all (fun c => ∃ d < radix.base.toNat, c = Nat.digitChar d) = true := by
    cases radix <;> rfl
  exact of_decide_eq_true (List.all_eq_true.mp hall c hc)

/-- `IsDigit` holds of the characters of the alphabet. -/
theorem isDigit_of_mem_alphabet {radix : Radix} {c : Char} (hc : c ∈ radix.alphabet) :
    radix.IsDigit c := by
  obtain ⟨d, hd, rfl⟩ := eq_digitChar_of_mem_alphabet hc
  exact isDigit_iff_exists_place.mpr ⟨d, place?_digitChar hd⟩

/-! ## The numeral of an integer -/

/-- `Nat.toDigits` writes digits that stand for the integer. -/
theorem value_toDigits (radix : Radix) (n : Nat) :
    radix.value (Nat.toDigits radix.base.toNat n) = n := by
  have hbase := radix.one_lt_base
  induction n using Nat.strong_induction_on with
  | _ n ih =>
    rw [Nat.toDigits_eq_if hbase]
    split
    · -- A single digit.
      rename_i hlt
      simpa using value_append_digit (place?_digitChar hlt) []
    · -- The digits of the quotient, and the remainder behind them.
      rename_i hge
      have hquotient : n / radix.base.toNat < n := Nat.div_lt_self (by omega) hbase
      have hremainder : n % radix.base.toNat < radix.base.toNat := Nat.mod_lt _ (by omega)
      rw [value_append_digit (place?_digitChar hremainder), ih _ hquotient, Nat.mul_comm,
        Nat.div_add_mod]

/-- `Nat.toDigits` writes characters of the alphabet. -/
private theorem mem_alphabet_of_mem_toDigits {radix : Radix} {n : Nat} {c : Char}
    (hc : c ∈ Nat.toDigits radix.base.toNat n) : c ∈ radix.alphabet := by
  have hbase := radix.one_lt_base
  induction n using Nat.strong_induction_on with
  | _ n ih =>
    rw [Nat.toDigits_eq_if hbase] at hc
    split at hc
    · rename_i hlt
      rw [List.mem_singleton.mp hc]
      exact digitChar_mem_alphabet hlt
    · rename_i hge
      -- The character is a digit of the quotient, or the remainder.
      rcases List.mem_append.mp hc with hc | hc
      · exact ih _ (Nat.div_lt_self (by omega) hbase) hc
      · rw [List.mem_singleton.mp hc]
        exact digitChar_mem_alphabet (Nat.mod_lt _ (by omega))

/-- `Nat.toDigits` puts a zero in front of no integer but zero. -/
private theorem head?_toDigits_ne_zero {radix : Radix} {n : Nat} (hn : n ≠ 0) :
    (Nat.toDigits radix.base.toNat n).head? ≠ some '0' := by
  have hbase := radix.one_lt_base
  induction n using Nat.strong_induction_on with
  | _ n ih =>
    rw [Nat.toDigits_eq_if hbase]
    split
    · -- A single digit is the integer, which is not zero.
      simpa using hn
    · -- The first digit is that of the quotient, which is not zero either.
      rename_i hge
      have hquotient : n / radix.base.toNat ≠ 0 := by
        have := Nat.div_pos (show radix.base.toNat ≤ n by omega) (by omega)
        omega
      rw [List.head?_append_of_ne_nil _ Nat.toDigits_ne_nil]
      exact ih _ (Nat.div_lt_self (by omega) hbase) hquotient

/-- `Nat.toDigits` writes a canonical numeral. -/
theorem isNumeral_toDigits (radix : Radix) (n : Nat) :
    radix.IsNumeral (Nat.toDigits radix.base.toNat n) := by
  refine ⟨Nat.toDigits_ne_nil, fun c hc => mem_alphabet_of_mem_toDigits hc, ?_⟩
  intro hhead
  have hn : n = 0 := by
    by_contra hn
    exact head?_toDigits_ne_zero hn hhead
  rw [hn, Nat.toDigits_zero]

/-- A canonical numeral is what `Nat.toDigits` writes for its integer, so there is no other. -/
theorem IsNumeral.eq_toDigits {radix : Radix} {cs : List Char} (h : radix.IsNumeral cs) :
    cs = Nat.toDigits radix.base.toNat (radix.value cs) := by
  have hbase := radix.one_lt_base
  induction cs using List.reverseRecOn with
  | nil => exact absurd rfl h.1
  | append_singleton init c ih =>
    obtain ⟨-, hdigits, hzero⟩ := h
    obtain ⟨d, hd, rfl⟩ := eq_digitChar_of_mem_alphabet (hdigits c (by simp))
    rw [value_append_digit (place?_digitChar hd)]
    by_cases hinit : init = []
    · subst hinit
      simp [Nat.toDigits_of_lt_base hd]
    · -- A zero in front of further digits is ruled out: those before the last are a numeral.
      have hhead : init.head? ≠ some '0' := by
        intro hhead
        have hlength :=
          congrArg List.length (hzero (by rw [List.head?_append_of_ne_nil _ hinit, hhead]))
        simp only [List.length_append, List.length_singleton] at hlength
        exact hinit (List.eq_nil_of_length_eq_zero (by omega))
      have hnumeral : radix.IsNumeral init :=
        ⟨hinit, fun c hc => hdigits c (by simp [hc]), fun h => absurd h hhead⟩
      have hrec := ih hnumeral
      -- Its first digit is not zero, so neither is its integer.
      have hpos : 0 < radix.value init := by
        rw [Nat.pos_iff_ne_zero]
        intro hvalue
        rw [hvalue, Nat.toDigits_zero] at hrec
        simp [hrec] at hhead
      have happend := Nat.toDigits_append_toDigits hbase hpos hd
      rw [Nat.toDigits_of_lt_base hd, ← hrec, Nat.mul_comm] at happend
      exact happend

end FieldWord.Radix

namespace FieldWord.Word256

open Radix

/-! ## Hexadecimal -/

/-- The two hexadecimal digits of a byte as characters. -/
def byteChars (b : UInt8) : List Char :=
  [Nat.digitChar (b.toNat / 16)] ++ [Nat.digitChar (b.toNat % 16)]

/-- `byteDigits` gives the bytes of the two characters. -/
private theorem byteDigits_eq (b : UInt8) : byteDigits b = (byteChars b).map Char.toUInt8 := by
  have hhigh : (b >>> 4).toNat = b.toNat / 16 := by
    rw [UInt8.toNat_shiftRight, Nat.shiftRight_eq_div_pow]
    rfl
  have hlow : (b &&& 0x0F).toNat = b.toNat % 16 := by
    rw [UInt8.toNat_and, show (0x0F : UInt8).toNat = 2 ^ 4 - 1 from rfl,
      Nat.and_two_pow_sub_one_eq_mod]
  rw [byteDigits, hhigh, hlow]
  rfl

/-- `byteDigits` of a string gives the bytes of all characters. -/
private theorem flatMap_byteDigits_eq (bs : List UInt8) :
    bs.flatMap byteDigits = (bs.flatMap byteChars).map Char.toUInt8 := by
  rw [List.map_flatMap, funext byteDigits_eq]

/-- `byteChars` are two digits that denote the byte. -/
private theorem value_byteChars (b : UInt8) :
    hexadecimal.value (byteChars b) = b.toNat ∧ (hexadecimal.digits (byteChars b)).length = 2 ∧
      ∀ c ∈ byteChars b, c ∈ hexadecimal.alphabet := by
  have hb := b.toNat_lt
  have hhigh : b.toNat / 16 < hexadecimal.base.toNat := by
    rw [show hexadecimal.base.toNat = 16 from rfl]
    omega
  have hlow : b.toNat % 16 < hexadecimal.base.toNat := by
    rw [show hexadecimal.base.toNat = 16 from rfl]
    omega
  refine ⟨?_, ?_, ?_⟩
  · -- The first digit counts sixteen times.
    have hfirst := value_append_digit (place?_digitChar hhigh) []
    rw [List.nil_append, value_nil, Nat.zero_mul, Nat.zero_add] at hfirst
    rw [byteChars, value_append_digit (place?_digitChar hlow), hfirst,
      show hexadecimal.base.toNat = 16 from rfl]
    omega
  · simp [byteChars, digits, place?_digitChar hhigh, place?_digitChar hlow]
  · simp [byteChars, digitChar_mem_alphabet hhigh, digitChar_mem_alphabet hlow]

/-- `byteChars` of a string are two digits for each byte, and denote its integer. -/
private theorem value_flatMap_byteChars (bs : List UInt8) :
    hexadecimal.value (bs.flatMap byteChars) = Bytes.value bs ∧
      (hexadecimal.digits (bs.flatMap byteChars)).length = 2 * bs.length ∧
      ∀ c ∈ bs.flatMap byteChars, c ∈ hexadecimal.alphabet := by
  induction bs with
  | nil => simp [digits]
  | cons b bs ih =>
    obtain ⟨ihvalue, ihlength, ihmem⟩ := ih
    obtain ⟨hvalue, hlength, hmem⟩ := value_byteChars b
    rw [List.flatMap_cons]
    refine ⟨?_, ?_, ?_⟩
    · -- Two digits behind count as a byte does: the square of 16 is 256.
      rw [value_append, hvalue, ihvalue, ihlength, Bytes.value_cons, pow_mul,
        show hexadecimal.base.toNat ^ 2 = 256 from rfl]
    · rw [digits_append, List.length_append, hlength, ihlength, List.length_cons]
      ring
    · intro c hc
      exact (List.mem_append.mp hc).elim (hmem c) (ihmem c)

/-- `findIdx?` finds the first digit that is not zero in the same place among the characters and
    among their bytes. -/
private theorem findIdx?_map_toUInt8 {radix : Radix} {cs : List Char}
    (hcs : ∀ c ∈ cs, c ∈ radix.alphabet) :
    (cs.map Char.toUInt8).findIdx? (· != '0'.toUInt8) = cs.findIdx? (· != '0') := by
  -- Of the alphabet, only the zero has its byte.
  have hzero : radix.alphabet.all (fun c => (c.toUInt8 != '0'.toUInt8) == (c != '0')) = true := by
    cases radix <;> rfl
  induction cs with
  | nil => rfl
  | cons c cs ih =>
    obtain ⟨hc, hcs⟩ := List.forall_mem_cons.mp hcs
    have hhead : (c.toUInt8 != '0'.toUInt8) = (c != '0') :=
      eq_of_beq (List.all_eq_true.mp hzero c hc)
    rw [List.map_cons, List.findIdx?_cons, List.findIdx?_cons, hhead, ih hcs]

/-- Digits from the first one that is not zero, or else from the last one, are a numeral of the same
    integer. -/
theorem isNumeral_drop_zeros {radix : Radix} {cs : List Char} (hne : cs ≠ [])
    (hcs : ∀ c ∈ cs, c ∈ radix.alphabet) :
    radix.IsNumeral (cs.drop ((cs.findIdx? (· != '0')).getD (cs.length - 1))) ∧
      radix.value (cs.drop ((cs.findIdx? (· != '0')).getD (cs.length - 1))) = radix.value cs := by
  have hlength := List.length_pos_of_ne_nil hne
  cases hfirst : cs.findIdx? (· != '0') with
  | none =>
    -- All digits are zero, and the last of them is left.
    have hzero : cs = List.replicate cs.length '0' :=
      List.eq_replicate_of_mem (by simpa using hfirst)
    have hlast : cs.drop (cs.length - 1) = ['0'] := by
      rw [hzero, List.drop_replicate, List.length_replicate, Nat.sub_sub_self hlength]
      rfl
    have hvalue : radix.value cs = 0 := by
      have h := radix.value_replicate_zero_append cs.length []
      rwa [List.append_nil, ← hzero] at h
    rw [Option.getD_none, hlast, hvalue, value_zero_cons]
    exact ⟨⟨by simp, fun c hc => hcs c (List.mem_of_mem_drop (hlast ▸ hc)), fun _ => rfl⟩, rfl⟩
  | some first =>
    -- What stands before the first other digit are zeros, and they alone are dropped.
    obtain ⟨hlt, hindex⟩ := List.findIdx?_eq_some_iff_findIdx_eq.mp hfirst
    have hdrop : cs.drop first = cs.dropWhile (· == '0') := by
      rw [List.dropWhile_eq_drop_findIdx_not, ← hindex]
      rfl
    have hhead : (cs.drop first).head? ≠ some '0' := by
      intro hhead
      have := List.head?_dropWhile_not (· == '0') cs
      rw [← hdrop, hhead] at this
      simp at this
    rw [Option.getD_some]
    refine ⟨⟨?_, fun c hc => hcs c (List.mem_of_mem_drop hc), fun h => absurd h hhead⟩, ?_⟩
    · rw [ne_eq, List.drop_eq_nil_iff]
      omega
    · rw [hdrop, value_dropWhile_zero]

/-- `hexadecimalDigits` is the canonical numeral. -/
private theorem hexadecimalDigits_eq (w : Word256) :
    w.hexadecimalDigits = (Nat.toDigits 16 w.toNat).map Char.toUInt8 := by
  obtain ⟨hvalue, -, hmem⟩ := value_flatMap_byteChars w.byteList
  -- Two digits for each byte: the last of them, which stays in any case, is at place 63.
  have hlength : (w.byteList.flatMap byteChars).length = 64 := by
    simp [List.length_flatMap, byteChars]
  have hne : w.byteList.flatMap byteChars ≠ [] := List.ne_nil_of_length_pos (by omega)
  obtain ⟨hnumeral, htrimmed⟩ := isNumeral_drop_zeros hne hmem
  have hdigits := hnumeral.eq_toDigits
  rw [htrimmed, hvalue, hlength] at hdigits
  rw [hexadecimalDigits, flatMap_byteDigits_eq, findIdx?_map_toUInt8 hmem, ← List.map_drop]
  exact congrArg (List.map Char.toUInt8) hdigits

/-! ## Numerals of words -/

/-- `numeral?` never fails: the digits have a place in the buffer, and they are a text. -/
theorem numeral?_eq (w : Word256) (radix : Radix) :
    w.numeral? radix = some (String.ofList (Nat.toDigits radix.base.toNat w.toNat)) := by
  cases radix with
  | decimal =>
    unfold numeral?
    by_cases hw : w.toNat = 0
    · -- Zero has no digits to divide off, and does not come to the writer.
      rw [if_pos ((isZero_iff_toNat_eq_zero w).mpr hw), hw]
      rfl
    · obtain ⟨last, hturns, -, hwritten⟩ := DecimalWriter.exists_turns_new w
      rw [if_neg (mt (isZero_iff_toNat_eq_zero w).mp hw), hturns.run?_eq, Option.bind_eq_bind,
        Option.bind_some, DecimalWriter.text?_of_written hwritten, decimalChars_eq_toDigits hw]
      rfl
  | hexadecimal =>
    unfold numeral?
    rw [hexadecimalDigits_eq]
    -- The digits are from the alphabet, so their bytes are a text.
    apply fromUTF8?_ascii
    intro c hc
    have hmem : c ∈ hexadecimal.alphabet := mem_alphabet_of_mem_toDigits hc
    exact toNat_lt_of_isDigit (isDigit_of_mem_alphabet hmem)

/-- `numeral` is the canonical numeral of the integer. -/
theorem numeral_eq_toDigits (w : Word256) (radix : Radix) :
    w.numeral radix = Nat.toDigits radix.base.toNat w.toNat := by
  rw [numeral, numeral?_eq, Option.getD_some, String.toList_ofList]

end FieldWord.Word256

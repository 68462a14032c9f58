import FieldWord.Proofs.Literal.Faults
import FieldWord.Proofs.RoundTrip

/-!
# Signed literals

A minus sign in front of the literal of a field element negates the element. It makes no difference
to what is accepted: the magnitude is read as it would be without the sign, one byte further into
the text, so that a reported index moves by one and everything else stays. Only one sign is split
off; a second one is a character like any other.

## Key results

- `Literal.Verdict.shift`, `Literal.readWord_add_offset`: the reader on a text that stands further
  along
- `Felt.read_minus`: a sign on any text without one, as one equation
- `Felt.read_minus_eq_ok_iff`, `Felt.read_minus_large`: which magnitudes are accepted
- `Felt.read_minus_eq_neg`: the law of the sign for every text
-/

namespace FieldWord

/-- What is reported when the text stands `count` bytes further along. -/
def LiteralError.shift (count : Nat) : LiteralError → LiteralError
  | invalidDigit index found => invalidDigit (index + count) found
  | empty => empty
  | overflow => overflow
  | notInField => notInField

/-- `shift` moves the index of an invalid digit only. -/
private theorem LiteralError.shift_eq_self {error : LiteralError}
    (h : error ∈ [empty, overflow, notInField]) (count : Nat) :
    error.shift count = error := by
  simp only [List.mem_cons, List.not_mem_nil, or_false] at h
  rcases h with rfl | rfl | rfl <;> rfl

namespace Literal

/-- `Verdict` depends on where a text stands only by the index. -/
theorem Verdict.shift {text : List Char} {offset : Nat}
    {result : Except LiteralError Word256} (h : Verdict text offset result) (count : Nat) :
    Verdict text (offset + count) (result.mapError (·.shift count)) := by
  cases h with
  | empty hbody => exact .empty hbody
  | overflowing hleft hover => exact .overflowing hleft hover
  | accepted hfree hbody hlast hw => exact .accepted hfree hbody hlast hw
  -- The two that report an index count it from the offset.
  | bad hleft hbad hc =>
    show Verdict text _ (.error (.invalidDigit _ _))
    rw [Nat.add_right_comm]
    exact .bad hleft hbad hc
  | trailing hfree hlast =>
    show Verdict text _ (.error (.invalidDigit _ _))
    rw [Nat.add_right_comm]
    exact .trailing hfree hlast

/-- `readWord` reads a text that stands further along alike, up to the index of a reported
    character. -/
theorem readWord_add_offset (text : List Char) (offset count : Nat) :
    readWord text (offset + count) = (readWord text offset).mapError (·.shift count) := by
  obtain ⟨result, hresult⟩ := exists_verdict text offset
  rw [readWord_eq_of_verdict hresult, readWord_eq_of_verdict (hresult.shift count)]

end Literal

namespace Felt

/-- `read` of a sign in front of a text without one negates the element that is read and moves the
    index that is reported. -/
theorem read_minus {literal : String} (hsign : literal.toList.head? ≠ some '-') :
    (read ("-" ++ literal)).value = ((read literal).value.map (- ·)).mapError (·.shift 1) := by
  have hshift := Literal.readWord_add_offset literal.toList 0 1
  rw [Nat.zero_add] at hshift
  rw [value_read_signed, value_read_unsigned hsign, hshift]
  cases Literal.readWord literal.toList 0 with
  | error error => rfl
  | ok w =>
    -- The magnitude is compared with the prime before it is negated.
    by_cases hfits : w.toNat < order
    · simp only [Except.mapError, if_pos hfits, Except.map]
    · simp only [Except.mapError, if_neg hfits, Except.map, LiteralError.shift]

/-- `read` of a sign in front of a text with one splits it off, and the next one is at fault. -/
private theorem read_minus_minus {literal : String} (hsign : literal.toList.head? = some '-') :
    (read ("-" ++ literal)).value = .error (.invalidDigit 1 '-') := by
  obtain ⟨magnitude, htext⟩ := List.head?_eq_some_iff.mp hsign
  rw [value_read_signed, htext, Literal.readWord_sign]

/-- `read` behind a sign accepts a magnitude below the prime, and no other. -/
theorem read_minus_eq_ok_iff {literal : String} {x : Felt} :
    (read ("-" ++ literal)).value = .ok x ↔
      ∃ magnitude : Felt, magnitude.Valid ∧ Literal.Denotes literal.toList magnitude.word.toNat ∧
        x = -magnitude := by
  rw [read_eq_ok_iff, splitSign_signed]
  rfl

/-- `read` does not reduce a magnitude from the prime on, but rejects it. -/
theorem read_minus_large {literal : String} {n : Nat} (h : Literal.Denotes literal.toList n)
    (hn : order ≤ n) :
    (read ("-" ++ literal)).value = .error (if n < 2 ^ 256 then .notInField else .overflow) := by
  rw [value_read_signed]
  by_cases hfits : n < 2 ^ 256
  · -- A word holds the magnitude, and the comparison with the prime finds it too large.
    have hword := Word256.toNat_ofNat_of_lt hfits
    have hread : Literal.readWord literal.toList 1 = .ok (.ofNat n) := by
      rw [Literal.readWord_eq_ok_iff, hword]
      exact h
    simp only [hread, hword, if_neg (Nat.not_lt.mpr hn), if_pos hfits]
  · rw [Literal.readWord_eq_overflow h (Nat.le_of_not_lt hfits), if_neg hfits]

/-- `read` takes what `format` writes for a residue for its negative behind a sign. -/
theorem Residue.read_minus_format (x : Residue) {radix : Radix} {layout : Layout}
    (hmarked : radix = .decimal ∨ layout.marked = true) (hplus : layout.plus = false)
    (hpad : layout.zeros = true ∨ layout.width = 0) :
    (read ("-" ++ x.format radix layout)).value = .ok (-x).toFelt := by
  rw [read_minus_eq_ok_iff]
  exact ⟨x.toFelt, x.valid, x.word.denotes_format hmarked hplus hpad, rfl⟩

/-- `read` of a sign in front of a text without one negates the element, moves the index of a
    reported character by one and leaves the other errors as they are; a second sign is at fault
    itself. So the magnitude has to be below the prime, and is rejected otherwise, whether a word
    holds it or not; zero behind a sign is zero, however it is spelled; and the decimal and the
    marked hexadecimal text of an element are read as its negative. -/
theorem read_minus_eq_neg :
    (∀ literal : String, literal.toList.head? ≠ some '-' →
      (∀ x, (read literal).value = .ok x → (read ("-" ++ literal)).value = .ok (-x)) ∧
      (∀ index found, (read literal).value = .error (.invalidDigit index found) →
        (read ("-" ++ literal)).value = .error (.invalidDigit (index + 1) found)) ∧
      ∀ error ∈ [LiteralError.empty, .overflow, .notInField], (read literal).value = .error error →
        (read ("-" ++ literal)).value = .error error) ∧
    (∀ literal : String, literal.toList.head? = some '-' →
      (read ("-" ++ literal)).value = .error (.invalidDigit 1 '-')) ∧
    (∀ (literal : String) (x : Felt), (read ("-" ++ literal)).value = .ok x ↔
      ∃ magnitude : Felt, magnitude.Valid ∧ Literal.Denotes literal.toList magnitude.word.toNat ∧
        x = -magnitude) ∧
    (∀ (literal : String) (n : Nat), Literal.Denotes literal.toList n → order ≤ n →
      (read ("-" ++ literal)).value = .error (if n < 2 ^ 256 then .notInField else .overflow)) ∧
    (∀ literal : String, Literal.Denotes literal.toList 0 →
      (read ("-" ++ literal)).value = .ok zero) ∧
    ∀ x : Felt, x.Valid →
      (read ("-" ++ x.format .decimal {})).value = .ok (-x) ∧
      (read ("-" ++ x.format .hexadecimal { marked := true })).value = .ok (-x) := by
  refine ⟨?_, fun _ => read_minus_minus, fun _ _ => read_minus_eq_ok_iff,
    fun _ _ => read_minus_large, ?_, ?_⟩
  · -- In front of a text without a sign, by what is read or reported there.
    intro literal hsign
    have hminus := read_minus hsign
    refine ⟨?_, ?_, ?_⟩
    · intro x hx
      rw [hminus, hx]
      rfl
    · intro index found hfound
      rw [hminus, hfound]
      rfl
    · intro error hmem herror
      rw [hminus, herror]
      show Except.error (error.shift 1) = _
      rw [LiteralError.shift_eq_self hmem]
  · -- The negative of zero is zero.
    intro literal hzero
    rw [read_minus_eq_ok_iff]
    exact ⟨zero, by decide, hzero, rfl⟩
  · -- Neither layout has a plus sign or a width.
    intro x hx
    lift x to Residue using hx
    exact ⟨x.read_minus_format (.inl rfl) rfl (.inr rfl),
      x.read_minus_format (.inr rfl) rfl (.inr rfl)⟩

/-- The separator at the end of a literal is reported one byte further along behind a sign, and a
    second sign at its own place. The prime is not accepted behind a sign, and the element before it
    is read as one. -/
theorem read_minus_eq_neg_last :
    ((read "0x1_").value = .error (.invalidDigit 3 '_') ∧
      (read ("-" ++ "0x1_")).value = .error (.invalidDigit 4 '_')) ∧
    (read ("-" ++ "-1")).value = .error (.invalidDigit 1 '-') ∧
    (read ("-" ++ prime.format .decimal {})).value = .error .notInField ∧
    max.Valid ∧ (read ("-" ++ max.format .decimal {})).value = .ok one := by
  obtain ⟨hlaw, hsecond, -, hlarge, -, htext⟩ := read_minus_eq_neg
  have hread : (read "0x1_").value = .error (.invalidDigit 3 '_') := by decide +kernel
  have hprime : Literal.Denotes (prime.format .decimal {}).toList order := by
    rw [← toNat_prime]
    exact prime.denotes_format (.inl rfl) rfl (.inr rfl)
  have hvalid : max.Valid := by decide
  have hmax : -max = one := by decide +kernel
  refine ⟨⟨hread, (hlaw "0x1_" (by decide)).2.1 3 '_' hread⟩, hsecond "-1" (by decide), ?_, hvalid,
    ?_⟩
  · rw [hlarge _ _ hprime (Nat.le_refl _), if_pos (by decide)]
  · rw [(htext max hvalid).1, hmax]

end Felt

end FieldWord

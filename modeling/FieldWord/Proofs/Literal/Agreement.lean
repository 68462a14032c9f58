import FieldWord.Proofs.Conversions
import FieldWord.Proofs.Literal.Sign

/-!
# Agreement of the readers

The three types read a text without a sign alike: they reject it for the same reason, or take the
same integer from it and then differ only in their bounds, `2 ^ 256`, `2 ^ 248` and the order of the
field. A sign is for field elements alone.

## Key results

- `Word248.read_eq_ok_iff_felt`: a bounded word is read where an element is read that narrows to it
- `Value.readers_agree`: the three readers on every text
-/

namespace FieldWord

/-- `read` rejects a text that starts with a sign at once. -/
private theorem Word256.read_sign {literal : String} (hsign : literal.toList.head? = some '-') :
    (read literal).value = .error (.invalidDigit 0 '-') := by
  obtain ⟨magnitude, htext⟩ := List.head?_eq_some_iff.mp hsign
  rw [value_read, htext, Literal.readWord_sign]

/-- `read` rejects what is no literal of a word, for the same reason. -/
private theorem Word248.read_of_word_error {literal : String} {error : LiteralError}
    (h : (Word256.read literal).value = .error error) : (read literal).value = .error error := by
  rw [Word256.value_read] at h
  rw [value_read, h]

/-- `read` takes the word that is read, if it is below the bound. -/
private theorem Word248.read_of_word_ok {literal : String} {w : Word256}
    (h : (Word256.read literal).value = .ok w) :
    (read literal).value = if w.toNat < 2 ^ 248 then .ok ⟨w⟩ else .error .overflow := by
  rw [Word256.value_read] at h
  rw [value_read, h]

/-- `read` rejects what is no literal of a word, for the same reason. -/
private theorem Felt.read_of_word_error {literal : String} (hsign : literal.toList.head? ≠ some '-')
    {error : LiteralError} (h : (Word256.read literal).value = .error error) :
    (read literal).value = .error error := by
  rw [Word256.value_read] at h
  rw [value_read_unsigned hsign, h]

/-- `read` takes the word that is read, if it is below the prime. -/
private theorem Felt.read_of_word_ok {literal : String} (hsign : literal.toList.head? ≠ some '-')
    {w : Word256} (h : (Word256.read literal).value = .ok w) :
    (read literal).value = if w.toNat < order then .ok ⟨w⟩ else .error .notInField := by
  rw [Word256.value_read] at h
  rw [value_read_unsigned hsign, h]

/-- `read` gives a bounded word exactly if `Felt.read` gives an element that narrows to it. -/
theorem Word248.read_eq_ok_iff_felt {literal : String} (hsign : literal.toList.head? ≠ some '-')
    {u : Word248} :
    (read literal).value = .ok u ↔
      ∃ x, (Felt.read literal).value = .ok x ∧ (ofFelt x).value = some u := by
  cases hread : (Word256.read literal).value with
  | error error =>
    -- Neither reader gives anything.
    rw [read_of_word_error hread, Felt.read_of_word_error hsign hread]
    simp
  | ok w =>
    rw [read_of_word_ok hread, Felt.read_of_word_ok hsign hread, ite_eq_ok_iff]
    constructor
    · rintro ⟨hfits, rfl⟩
      -- Below the bound of bounded words, an integer is below the prime too.
      have hprime : w.toNat < Felt.order := (Felt.Residue.ofBounded ⟨⟨w⟩, hfits⟩).valid
      exact ⟨⟨w⟩, if_pos hprime, Bounded.ofFelt_ofWord248 ⟨⟨w⟩, hfits⟩⟩
    · rintro ⟨x, hx, hu⟩
      -- The element is the word that was read, so it narrows only if that fits.
      obtain ⟨-, rfl⟩ := ite_eq_ok_iff.mp hx
      rw [value_ofFelt, Option.ite_none_right_eq_some] at hu
      exact ⟨hu.1, Option.some.inj hu.2⟩

/-- `marked` writes a text without a sign that `read` takes for the word. -/
private theorem Word256.read_marked (w : Word256) (radix : Radix) :
    (w.marked radix).toList.head? ≠ some '-' ∧ (read (w.marked radix)).value = .ok w := by
  have hdenotes : Literal.Denotes (w.marked radix).toList w.toNat :=
    w.denotes_format (.inr rfl) rfl (.inr rfl)
  rw [value_read]
  exact ⟨hdenotes.head?_ne_sign, Literal.readWord_eq_ok_iff.mpr hdenotes⟩

/-- `read` gives every bounded word for some signed literal of the field. -/
private theorem Felt.exists_read_signed (u : Word248.Bounded) :
    ∃ literal : String, literal.toList.head? = some '-' ∧
      (read literal).value = .ok (.ofWord248 u.toWord248) := by
  -- The sign undoes the negative of the element, of which the text is written.
  have hread : (read ("-" ++ (-Residue.ofBounded u).format .decimal {})).value = _ :=
    (-Residue.ofBounded u).read_minus_format (.inl rfl) rfl (.inr rfl)
  rw [neg_neg] at hread
  exact ⟨_, by simp, hread⟩

/-- `Word256.read`, `Word248.read` and `Felt.read` agree. Without a sign, a text that is no literal
    of a word is rejected by all of them for the same reason. From any other text they take the same
    integer, and the smaller types reject it if it reaches their bound; so bounded words are read
    where elements are read that narrow to them. With a sign, words and bounded words are rejected
    at its place, although there are signed literals of all bounded words in the field. -/
theorem Value.readers_agree :
    (∀ literal : String, literal.toList.head? ≠ some '-' →
      (∀ error, (Word256.read literal).value = .error error →
        (Word248.read literal).value = .error error ∧ (Felt.read literal).value = .error error) ∧
      (∀ w, (Word256.read literal).value = .ok w →
        (Word248.read literal).value = (if w.toNat < 2 ^ 248 then .ok ⟨w⟩ else .error .overflow) ∧
        (Felt.read literal).value =
          (if w.toNat < Felt.order then .ok ⟨w⟩ else .error .notInField)) ∧
      ∀ u, (Word248.read literal).value = .ok u ↔
        ∃ x, (Felt.read literal).value = .ok x ∧ (Word248.ofFelt x).value = some u) ∧
    (∀ literal : String, literal.toList.head? = some '-' →
      (Word256.read literal).value = .error (.invalidDigit 0 '-') ∧
      (Word248.read literal).value = .error (.invalidDigit 0 '-')) ∧
    ∀ u : Word248, u.Valid →
      ∃ literal : String, literal.toList.head? = some '-' ∧
        (Felt.read literal).value = .ok (.ofWord248 u) := by
  refine ⟨?_, ?_, fun u hu => Felt.exists_read_signed ⟨u, hu⟩⟩
  · -- Without a sign, by what the words make of the text.
    intro literal hsign
    refine ⟨?_, ?_, fun u => Word248.read_eq_ok_iff_felt hsign⟩
    · intro error herror
      exact ⟨Word248.read_of_word_error herror, Felt.read_of_word_error hsign herror⟩
    · intro w hw
      exact ⟨Word248.read_of_word_ok hw, Felt.read_of_word_ok hsign hw⟩
  · -- With a sign, which is no digit.
    intro literal hsign
    have hword := Word256.read_sign hsign
    exact ⟨hword, Word248.read_of_word_error hword⟩

/-- The prime is read as a word only, and the literal `-0` as a field element only. -/
theorem Value.readers_agree_prime :
    ((Word256.read (Felt.prime.marked .hexadecimal)).value = .ok Felt.prime ∧
      (Word248.read (Felt.prime.marked .hexadecimal)).value = .error .overflow ∧
      (Felt.read (Felt.prime.marked .hexadecimal)).value = .error .notInField) ∧
    (Felt.read "-0").value = .ok .zero ∧
    (Word248.read "-0").value = .error (.invalidDigit 0 '-') := by
  obtain ⟨hsign, hread⟩ := Felt.prime.read_marked .hexadecimal
  obtain ⟨hunsigned, hsigned, -⟩ := readers_agree
  obtain ⟨hword248, hfelt⟩ := (hunsigned _ hsign).2.1 _ hread
  refine ⟨⟨hread, ?_, ?_⟩, by decide +kernel, (hsigned "-0" (by decide)).2⟩
  · rw [hword248, Felt.toNat_prime]
    exact if_neg (by decide)
  · rw [hfelt, Felt.toNat_prime]
    exact if_neg (Nat.lt_irrefl _)

end FieldWord

import FieldWord.Word256.Decimal
import FieldWord.Proofs.Word256

/-!
# The decimal writer never runs out of places

A turn of the writer takes the last digit off the rest and puts it in the place in front of the
digits written. The invariant is `HasRoom`: the rest has no more digits than there are places left.
A word has at most 78 digits, so a new writer has room, and every turn keeps it.

## Key results

- `fromUTF8?_ascii`: ASCII characters are a text
- `exists_step?`: one turn, with the digit it writes
- `exists_turns`: the turns are as many as the rest has digits, and write these
- `exists_turns_new`: all digits of a word, in a buffer that they may fill but not exceed
-/

namespace FieldWord

/-! ## ASCII -/

/-- `List.utf8Encode` takes one byte for each ASCII character. -/
private theorem utf8Encode_ascii {cs : List Char} (hcs : ∀ c ∈ cs, c.toNat < 128) :
    cs.utf8Encode = (cs.map Char.toUInt8).toByteArray := by
  induction cs with
  | nil => rfl
  | cons c cs ih =>
    obtain ⟨hc, hcs⟩ := List.forall_mem_cons.mp hcs
    have hle : c.val ≤ 127 := UInt32.le_iff_toNat_le.mpr (Nat.le_of_lt_succ hc)
    have hchar := String.utf8EncodeChar_eq_singleton (Char.utf8Size_eq_one_iff.mpr hle)
    rw [List.utf8Encode_cons, List.utf8Encode_singleton, hchar, ih hcs, ← List.toByteArray_append]
    rfl

/-- `String.fromUTF8?` takes the bytes of ASCII characters for the text of these characters. -/
theorem fromUTF8?_ascii {cs : List Char} (hcs : ∀ c ∈ cs, c.toNat < 128) :
    String.fromUTF8? (cs.map Char.toUInt8).toByteArray = some (String.ofList cs) := by
  rw [← utf8Encode_ascii hcs, ← String.toByteArray_ofList, String.fromUTF8?,
    dif_pos (String.isValidUTF8 _)]
  rfl

/-! ## Digits -/

/-- The decimal digits of an integer as characters, in reading order. Zero has none. -/
def decimalChars (n : Nat) : List Char := (Nat.digits 10 n).reverse.map Nat.digitChar

@[simp] theorem decimalChars_zero : decimalChars 0 = [] := by simp [decimalChars]

@[simp] theorem length_decimalChars (n : Nat) :
    (decimalChars n).length = (Nat.digits 10 n).length := by
  simp [decimalChars]

/-- `decimalChars` of a number other than zero ends in the character of its last digit. -/
private theorem decimalChars_of_ne_zero {n : Nat} (hn : n ≠ 0) :
    decimalChars n = decimalChars (n / 10) ++ [Nat.digitChar (n % 10)] := by
  rw [decimalChars, Nat.digits_def' (by decide) (Nat.pos_of_ne_zero hn), List.reverse_cons,
    List.map_append]
  rfl

/-- `decimalChars` is `Nat.toDigits`, except that zero has no digits. -/
theorem decimalChars_eq_toDigits {n : Nat} (hn : n ≠ 0) : decimalChars n = Nat.toDigits 10 n := by
  induction n using Nat.strong_induction_on with
  | _ n ih =>
    rw [decimalChars_of_ne_zero hn, Nat.toDigits_eq_if (by decide)]
    by_cases hlast : n < 10
    · rw [if_pos hlast, Nat.div_eq_of_lt hlast, Nat.mod_eq_of_lt hlast, decimalChars_zero,
        List.nil_append]
    · rw [if_neg hlast, ih (n / 10) (by omega) (by omega)]

/-- `decimalChars` has no characters but those from `0` to `9`. -/
private theorem toNat_mem_decimalChars {n : Nat} {c : Char} (hc : c ∈ decimalChars n) :
    '0'.toNat ≤ c.toNat ∧ c.toNat ≤ '9'.toNat := by
  have hdigit : ∀ d < 10, '0'.toNat ≤ (Nat.digitChar d).toNat ∧
      (Nat.digitChar d).toNat ≤ '9'.toNat := by
    decide
  obtain ⟨d, hd, rfl⟩ := List.mem_map.mp hc
  exact hdigit d (Nat.digits_lt_base (by decide) (List.mem_reverse.mp hd))

/-- `decimalChars` has no bytes but those from `0` to `9`. -/
theorem toUInt8_mem_decimalChars {n : Nat} {b : UInt8}
    (hb : b ∈ (decimalChars n).map Char.toUInt8) :
    '0'.toUInt8 ≤ b ∧ b ≤ '9'.toUInt8 := by
  obtain ⟨c, hc, rfl⟩ := List.mem_map.mp hb
  obtain ⟨hlow, hhigh⟩ := toNat_mem_decimalChars hc
  have hnine : '9'.toNat < 256 := by decide
  have hbyte : c.toUInt8.toNat = c.toNat := Nat.mod_eq_of_lt (show c.toNat < 256 by omega)
  rw [UInt8.le_iff_toNat_le, UInt8.le_iff_toNat_le, hbyte]
  exact ⟨hlow, hhigh⟩

namespace DecimalWriter

variable {writer last : DecimalWriter}

/-! ## Turns -/

/-- A writer comes to the last one in so many turns: before each of them something is left to write,
    and there is a place for it, and after them nothing is left. -/
inductive Turns : (turns : Nat) → (writer last : DecimalWriter) → Prop where
  | done {writer : DecimalWriter} (hrest : writer.rest.isZero = true) : Turns 0 writer writer
  | turn {turns : Nat} {writer next last : DecimalWriter} (hrest : writer.rest.isZero = false)
      (hstep : writer.step? = some next) (hlast : Turns turns next last) :
      Turns (turns + 1) writer last

/-- `run?` takes the turns of `Turns`, and ends after them. -/
theorem Turns.run?_eq {turns : Nat} (h : Turns turns writer last) : writer.run? = some last := by
  induction h with
  | done hrest => rw [run?, if_pos hrest]
  | turn hrest hstep _ ih =>
    rw [run?, if_neg (by simp [hrest])]
    -- The loop takes the very step of the turn, so it does not fail in it.
    split
    · rename_i next' hstep'
      rw [hstep] at hstep'
      obtain rfl := Option.some.inj hstep'
      exact ih
    · rename_i hstep'
      rw [hstep] at hstep'
      cases hstep'

/-! ## One turn -/

/-- There are as many places left as the rest has digits, or more. -/
structure HasRoom (writer : DecimalWriter) : Prop where
  start_le : writer.start ≤ 78
  rest_lt : writer.rest.toNat < 10 ^ writer.start

private theorem hasRoom_new (w : Word256) : (new w).HasRoom where
  start_le := Nat.le_refl 78
  rest_lt := Nat.lt_trans w.toNat_lt (by norm_num [new])

@[simp] theorem written_new (w : Word256) : (new w).written = [] := by
  simp [new, written]

/-- `divRem` by ten gives the last digit, and what is in front of it. -/
private theorem divRem_ten (w : Word256) :
    (w.divRem 10).1.toNat = w.toNat / 10 ∧ (w.divRem 10).2.toNat = w.toNat % 10 := by
  have h := w.toNat_divRem 10 (by decide)
  rw [show (10 : UInt8).toNat = 10 from rfl] at h
  omega

/-- The character of a digit, counted on from that of zero. -/
private theorem zero_add_digit {d : UInt8} (hd : d.toNat < 10) :
    '0'.toUInt8 + d = (Nat.digitChar d.toNat).toUInt8 := by
  have hall : ∀ n < 10, '0'.toUInt8 + UInt8.ofNat n = (Nat.digitChar n).toUInt8 := by decide
  simpa using hall d.toNat hd

/-- A character in the place in front of the others is written in front of them. -/
private theorem drop_set_place (buffer : Vector UInt8 78) {place : Nat} (h : place < 78)
    (c : UInt8) :
    (buffer.set place c h).toList.drop place = c :: buffer.toList.drop (place + 1) := by
  have hlt : place < (buffer.toList.set place c).length := by simpa using h
  rw [Vector.toList_set, List.drop_eq_getElem_cons hlt]
  simp [List.drop_set]

/-- `step?` finds a place for the last digit while something is left, and leaves room for the
    others. -/
theorem exists_step? (hroom : writer.HasRoom) (hrest : writer.rest.toNat ≠ 0) :
    ∃ next, writer.step? = some next ∧ next.HasRoom ∧
      next.rest.toNat = writer.rest.toNat / 10 ∧ next.start + 1 = writer.start ∧
      next.written = (Nat.digitChar (writer.rest.toNat % 10)).toUInt8 :: writer.written := by
  obtain ⟨hle, hlt⟩ := hroom
  obtain ⟨hquotient, hremainder⟩ := divRem_ten writer.rest
  -- Without a place left the rest would be below one.
  have hpos : 0 < writer.start := by
    by_contra hzero
    rw [Nat.eq_zero_of_not_pos hzero, pow_zero] at hlt
    omega
  obtain ⟨place, hstart⟩ := Nat.exists_eq_add_one_of_ne_zero (Nat.ne_of_gt hpos)
  have hplace : place < 78 := by omega
  have hdigit : (writer.rest.divRem 10).2.toNat < 10 := by omega
  refine ⟨⟨(writer.rest.divRem 10).1,
      writer.buffer.set place ('0'.toUInt8 + (writer.rest.divRem 10).2) hplace,
    place⟩, ?_, ⟨?_, ?_⟩, hquotient, hstart.symm, ?_⟩
  · simp [step?, hstart, hplace]
  · exact Nat.le_of_lt hplace
  · -- One place fewer is left, for an integer ten times smaller.
    rw [hquotient, Nat.div_lt_iff_lt_mul (by decide), ← pow_succ, ← hstart]
    exact hlt
  · -- The digit goes in front of those that are written.
    simp only [written]
    rw [drop_set_place, zero_add_digit hdigit, hremainder, hstart]

/-! ## All turns -/

/-- `HasRoom` lets a writer take a turn for every digit of its rest, each of them a place further to
    the front. -/
theorem exists_turns (hroom : writer.HasRoom) :
    ∃ last, Turns (Nat.digits 10 writer.rest.toNat).length writer last ∧
      last.start + (Nat.digits 10 writer.rest.toNat).length = writer.start ∧
      last.written = (decimalChars writer.rest.toNat).map Char.toUInt8 ++ writer.written := by
  -- The induction is on the integer that is left: a turn divides it by ten.
  induction hn : writer.rest.toNat using Nat.strong_induction_on generalizing writer with
  | _ n ih =>
    by_cases hzero : n = 0
    · -- Nothing is left to write.
      have hrest : writer.rest.isZero = true := by rw [Word256.isZero_iff_toNat_eq_zero, hn, hzero]
      exact ⟨writer, by simpa [hzero] using Turns.done hrest, by simp [hzero], by simp [hzero]⟩
    · -- One turn, and then those for the quotient.
      have hrest : writer.rest.isZero = false := by
        rw [Bool.eq_false_iff, ne_eq, Word256.isZero_iff_toNat_eq_zero, hn]
        exact hzero
      obtain ⟨next, hstep, hnext, hquotient, hstart, hwritten⟩ := exists_step? hroom (by rwa [hn])
      rw [hn] at hquotient hwritten
      obtain ⟨last, hturns, hlaststart, hlast⟩ := ih (n / 10) (by omega) hnext hquotient
      refine ⟨last, ?_, ?_, ?_⟩
      · rw [Nat.digits_def' (by decide) (Nat.pos_of_ne_zero hzero)]
        exact .turn hrest hstep hturns
      · rw [Nat.digits_def' (by decide) (Nat.pos_of_ne_zero hzero), List.length_cons]
        omega
      · rw [hlast, hwritten, decimalChars_of_ne_zero hzero, List.map_append, List.append_assoc]
        rfl

/-- `new` takes a turn for every digit of the word and ends with these in the buffer, of which they
    may leave nothing free. -/
theorem exists_turns_new (w : Word256) :
    ∃ last, Turns (Nat.digits 10 w.toNat).length (new w) last ∧
      last.start + (Nat.digits 10 w.toNat).length = 78 ∧
      last.written = (decimalChars w.toNat).map Char.toUInt8 := by
  obtain ⟨last, hturns, hstart, hwritten⟩ := exists_turns (hasRoom_new w)
  rw [written_new, List.append_nil] at hwritten
  exact ⟨last, hturns, hstart, hwritten⟩

/-- `text?` finds a text in digits that are written. -/
theorem text?_of_written {n : Nat} (h : last.written = (decimalChars n).map Char.toUInt8) :
    last.text? = some (String.ofList (decimalChars n)) := by
  rw [text?, h]
  apply fromUTF8?_ascii
  intro c hc
  exact Nat.lt_of_le_of_lt (toNat_mem_decimalChars hc).2 (by decide)

end DecimalWriter

end FieldWord

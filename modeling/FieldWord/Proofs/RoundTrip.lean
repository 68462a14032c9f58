import FieldWord.Proofs.Bounded
import FieldWord.Proofs.Numeral

/-!
# Writing and reading

Numerals are literals: what is written for a value of any of the three types, with or without zeros
in front, is read back as that value. Of the many literals of a value only its canonical numeral is
what is written.

## Key results

- `Layout.arrange_zeros`: the layouts that pad with zeros or not at all
- `Word256.denotes_format`: such a text is a literal of the word
- `Value.read_format_and_canonical`: both directions for the three types
-/

namespace FieldWord.Literal

/-- `Digits` without separators are any digits. -/
theorem digits_of_forall {radix : Radix} {cs : List Char} (hne : cs ≠ [])
    (hcs : ∀ c ∈ cs, radix.IsDigit c) :
    Digits radix cs := by
  have hfurther : ∀ cs : List Char, (∀ c ∈ cs, radix.IsDigit c) → Further radix cs := by
    intro cs hcs
    induction cs with
    | nil => exact .nil
    | cons c cs ih =>
      obtain ⟨hc, hcs⟩ := List.forall_mem_cons.mp hcs
      exact .digit hc (ih hcs)
  cases cs with
  | nil => exact absurd rfl hne
  | cons c cs =>
    obtain ⟨hc, hcs⟩ := List.forall_mem_cons.mp hcs
    exact .mk hc (hfurther cs hcs)

/-- `Denotes` holds of no text that starts with a sign. -/
theorem Denotes.head?_ne_sign {text : List Char} {n : Nat} (h : Denotes text n) :
    text.head? ≠ some '-' := by
  obtain ⟨radix, marker, hmarker, body, rfl, hdigits, -⟩ := h
  cases radix with
  | hexadecimal =>
    -- A marker starts with a zero.
    simp only [markers, List.mem_cons, List.not_mem_nil, or_false] at hmarker
    rcases hmarker with rfl | rfl <;> simp
  | decimal =>
    -- Without a marker the text starts with a digit.
    have hnil : marker = [] := by simpa [markers] using hmarker
    subst hnil
    cases hdigits with
    | mk hc _ =>
      rintro hhead
      obtain rfl := Option.some.inj hhead
      exact absurd hc (by decide)

/-- `Denotes` takes a numeral behind zeros and a marker of its radix for its integer. -/
private theorem denotes_numeral {radix : Radix} {marker cs : List Char}
    (hmarker : marker ∈ markers radix) (hcs : radix.IsNumeral cs) (zeros : Nat) :
    Denotes (marker ++ List.replicate zeros '0' ++ cs) (radix.value cs) := by
  refine ⟨radix, marker, hmarker, List.replicate zeros '0' ++ cs, by simp, ?_, ?_⟩
  · refine digits_of_forall (by simp [hcs.1]) ?_
    intro c hc
    rcases List.mem_append.mp hc with hc | hc
    · rw [List.eq_of_mem_replicate hc]
      cases radix <;> decide
    · exact Radix.isDigit_of_mem_alphabet (hcs.2.1 c hc)
  · rw [Radix.value_replicate_zero_append]

/-- `markers` has what a numeral starts with, if it is decimal or marked. -/
private theorem mem_markers {radix : Radix} {marked : Bool} (h : radix = .decimal ∨ marked = true) :
    (if marked then radix.marker else []) ∈ markers radix := by
  rcases h with rfl | rfl
  · split <;> decide
  · cases radix <;> decide

end FieldWord.Literal

namespace FieldWord.Layout

/-- `arrange` without a sign, and with zeros or nothing to fill the width, gives the marker, zeros
    and the digits. -/
theorem arrange_zeros {layout : Layout} (hplus : layout.plus = false)
    (hpad : layout.zeros = true ∨ layout.width = 0) (marker digits : List Char) :
    ∃ zeros, layout.arrange marker digits =
      (if layout.marked then marker else []) ++ List.replicate zeros '0' ++ digits := by
  unfold arrange
  simp only [hplus, Bool.false_eq_true, if_false, List.nil_append]
  rcases hpad with hzeros | hwidth
  · -- The gap is filled with zeros.
    rw [if_pos hzeros]
    exact ⟨_, rfl⟩
  · -- Without a width there is no gap on either side.
    refine ⟨0, ?_⟩
    have hleft : layout.leftGap 0 = 0 := by
      unfold leftGap
      split <;> rfl
    simp [hwidth, hleft]

end FieldWord.Layout

namespace FieldWord.Word256

/-- `format` in such a layout writes a literal of the word; a hexadecimal numeral has to be marked.
    -/
theorem denotes_format (w : Word256) {radix : Radix} {layout : Layout}
    (hmarked : radix = .decimal ∨ layout.marked = true) (hplus : layout.plus = false)
    (hpad : layout.zeros = true ∨ layout.width = 0) :
    Literal.Denotes (w.format radix layout).toList w.toNat := by
  obtain ⟨zeros, htext⟩ := Layout.arrange_zeros hplus hpad radix.marker (w.numeral radix)
  rw [format, String.toList_ofList, htext, numeral_eq_toDigits]
  have hdenotes :=
    Literal.denotes_numeral (Literal.mem_markers hmarked) (radix.isNumeral_toDigits w.toNat) zeros
  rwa [Radix.value_toDigits] at hdenotes

/-- `format` without a width writes the marker, if asked for, and the numeral. -/
theorem toList_format_unpadded (w : Word256) (radix : Radix) (marked : Bool) :
    (w.format radix { marked := marked }).toList =
      (if marked then radix.marker else []) ++ Nat.toDigits radix.base.toNat w.toNat := by
  simp [format, Layout.arrange, Layout.leftGap, numeral_eq_toDigits]

end FieldWord.Word256

namespace FieldWord.Value

/-- `Value.format` of any type is the format of the word. -/
theorem format_eq (v : Value) (radix : Radix) (layout : Layout) :
    v.format radix layout = v.word.format radix layout := by
  cases v <;> rfl

/-- `Value.read` gives a valid value back from what is written for it. -/
theorem read_format {v : Value} (hv : v.Valid) {radix : Radix} {layout : Layout}
    (hmarked : radix = .decimal ∨ layout.marked = true) (hplus : layout.plus = false)
    (hpad : layout.zeros = true ∨ layout.width = 0) :
    (read v.kind (v.format radix layout)).value = .ok v := by
  have hdenotes := v.word.denotes_format hmarked hplus hpad
  rw [format_eq]
  exact (read_eq_ok_iff hdenotes.head?_ne_sign).mpr ⟨hv, hdenotes⟩

/-- Of the literals that `Value.read` takes for a value, only the marker with the canonical numeral
    is what `Value.format` writes. -/
theorem format_eq_iff_of_read {v : Value} {literal : String}
    (hread : (read v.kind literal).value = .ok v) {radix : Radix} {marked : Bool}
    (hmarked : radix = .decimal ∨ marked = true) :
    v.format radix { marked := marked } = literal ↔
      ∃ digits, literal.toList = (if marked then radix.marker else []) ++ digits ∧
        radix.IsNumeral digits := by
  rw [format_eq, ← String.toList_inj, Word256.toList_format_unpadded]
  constructor
  · intro htext
    exact ⟨_, htext.symm, radix.isNumeral_toDigits _⟩
  · rintro ⟨digits, htext, hdigits⟩
    have hdenotes := Literal.denotes_numeral (Literal.mem_markers hmarked) hdigits 0
    rw [List.replicate_zero, List.append_nil, ← htext] at hdenotes
    -- The literal has no sign, so it denotes the value itself.
    have hvalue := (read_eq_ok_iff hdenotes.head?_ne_sign).mp hread
    rw [htext, hvalue.2.unique hdenotes, ← hdigits.eq_toDigits]

/-- `Value.read` and `Value.format` are inverse. What is written for a valid value, plain or with
    zeros up to any width, is read back as that value; and of the texts that are read as a value,
    its decimal and hexadecimal numerals are those in lower case without sign, separator and
    redundant zero. -/
theorem read_format_and_canonical (v : Value) :
    (v.Valid → ∀ width : Nat,
      (read v.kind (v.format .decimal {})).value = .ok v ∧
      (read v.kind (v.format .hexadecimal { marked := true })).value = .ok v ∧
      (read v.kind (v.format .decimal { zeros := true, width := width })).value = .ok v ∧
      (read v.kind
        (v.format .hexadecimal { marked := true, zeros := true, width := width })).value = .ok v) ∧
    ∀ literal : String, (read v.kind literal).value = .ok v →
      (v.format .decimal {} = literal ↔ Radix.decimal.IsNumeral literal.toList) ∧
      (v.format .hexadecimal { marked := true } = literal ↔
        ∃ digits, literal.toList = ['0', 'x'] ++ digits ∧ Radix.hexadecimal.IsNumeral digits) := by
  constructor
  · -- No layout has a plus sign, and all are filled with zeros or not at all.
    intro hv width
    exact ⟨read_format hv (.inl rfl) rfl (.inr rfl), read_format hv (.inr rfl) rfl (.inr rfl),
      read_format hv (.inl rfl) rfl (.inl rfl), read_format hv (.inr rfl) rfl (.inl rfl)⟩
  · intro literal hread
    refine ⟨?_, format_eq_iff_of_read hread (.inr rfl)⟩
    -- Without a marker the digits are the whole text.
    rw [format_eq_iff_of_read hread (.inl rfl)]
    simp

/-- The largest field element, which is read from `-1` too. -/
theorem read_format_and_canonical_max :
    (felt Felt.max).Valid ∧ (read .felt "-1").value = .ok (felt Felt.max) ∧
      (read .felt ((felt Felt.max).format .hexadecimal
        { marked := true, zeros := true, width := 80 })).value = .ok (felt Felt.max) ∧
      ((felt Felt.max).format .decimal {} = "-1" ↔ Radix.decimal.IsNumeral "-1".toList) := by
  have hvalid : (felt Felt.max).Valid := by decide
  have hread : (read .felt "-1").value = .ok (felt Felt.max) := by decide +kernel
  obtain ⟨hformat, hcanonical⟩ := read_format_and_canonical (felt Felt.max)
  exact ⟨hvalid, hread, (hformat hvalid 80).2.2.2, (hcanonical "-1" hread).1⟩

end FieldWord.Value

import FieldWord.Proofs.Literal.Scan
import FieldWord.Proofs.Radix
import FieldWord.Proofs.Word256

/-!
# The grammar of literals

A literal is an optional marker and then `digit ("_"? digit)*` in the radix it announces. The reader
accepts the literals of integers below `2 ^ 256`, and gives the integer that the digits denote.
Leading zeros and separators do not count against a literal, so there is no bound on its length.

## Key results

- `appendDigit?_eq_some_iff`: one more digit, unless the integer would reach `2 ^ 256`
- `readDigits_eq_ok_iff`: what the reader accepts from any point on
- `readDigits_eq_overflow`, `exists_front_of_overflow`: what is rejected for its size
- `readWord_eq_ok_iff`, `read_eq_ok_iff_denotes`: what it accepts as a whole
-/

namespace FieldWord.Literal

/-! ## Grammar -/

/-- Further digits, each with at most one separator before it: `("_"? digit)*`. -/
inductive Further (radix : Radix) : List Char → Prop where
  | nil : Further radix []
  | digit {c : Char} {cs : List Char} (hc : radix.IsDigit c) (hcs : Further radix cs) :
      Further radix (c :: cs)
  | separated {c : Char} {cs : List Char} (hc : radix.IsDigit c) (hcs : Further radix cs) :
      Further radix ('_' :: c :: cs)

/-- Digits with single separators between them: `digit ("_"? digit)*`. -/
inductive Digits (radix : Radix) : List Char → Prop where
  | mk {c : Char} {cs : List Char} (hc : radix.IsDigit c) (hcs : Further radix cs) :
      Digits radix (c :: cs)

/-- The markers that announce a radix. -/
def markers : Radix → List (List Char)
  | .decimal => [[]]
  | .hexadecimal => [['0', 'x'], ['0', 'X']]

/-- The text is a literal of the integer `n`. -/
def Denotes (text : List Char) (n : Nat) : Prop :=
  ∃ radix, ∃ marker ∈ markers radix, ∃ body,
    text = marker ++ body ∧ Digits radix body ∧ n = radix.value body

/-- `Further` digits start with a digit, unless they start with a separator. -/
theorem further_cons_iff {radix : Radix} {c : Char} {cs : List Char} (hc : c ≠ '_') :
    Further radix (c :: cs) ↔ radix.IsDigit c ∧ Further radix cs := by
  constructor
  · intro h
    cases h with
    | digit hdigit hcs => exact ⟨hdigit, hcs⟩
    | separated => exact absurd rfl hc
  · exact fun h => .digit h.1 h.2

/-- `Further` digits go on with `Digits` behind a separator. -/
theorem further_separator_iff {radix : Radix} {cs : List Char} :
    Further radix ('_' :: cs) ↔ Digits radix cs := by
  constructor
  · intro h
    cases h with
    | digit hdigit _ => exact absurd hdigit radix.not_isDigit_separator
    | separated hdigit hcs => exact .mk hdigit hcs
  · intro h
    cases h with
    | mk hdigit hcs => exact .separated hdigit hcs

/-- `Digits` start with a digit. -/
theorem digits_cons_iff {radix : Radix} {c : Char} {cs : List Char} :
    Digits radix (c :: cs) ↔ radix.IsDigit c ∧ Further radix cs :=
  ⟨fun h => by cases h with | mk hdigit hcs => exact ⟨hdigit, hcs⟩, fun h => .mk h.1 h.2⟩

private theorem not_digits_nil (radix : Radix) : ¬ Digits radix [] := by
  intro h
  cases h

/-! ## The reader -/

/-- `appendDigit?` gives the exact integer, if a word holds it. -/
theorem appendDigit?_eq_some_iff {radix : Radix} {w v : Word256} {digit : UInt8} :
    appendDigit? radix w digit = some v ↔ v.toNat = w.toNat * radix.base.toNat + digit.toNat := by
  simp only [appendDigit?, Option.bind_eq_bind, Option.bind_eq_some_iff, Word256.mul?_eq_some_iff,
    Word256.add?_eq_some_iff, Word256.toNat_ofNative_byte]
  constructor
  · rintro ⟨shifted, hshifted, hv⟩
    rw [hv, hshifted]
  · -- The shifted word is not above the result, so it fits as well.
    intro hv
    have hlt := v.toNat_lt
    have hshifted := Word256.toNat_ofNat_of_lt (show w.toNat * radix.base.toNat < 2 ^ 256 by omega)
    exact ⟨.ofNat (w.toNat * radix.base.toNat), hshifted, by rw [hshifted, hv]⟩

/-- `appendDigit?` fails exactly if no word holds the integer. -/
private theorem appendDigit?_eq_none_iff {radix : Radix} {w : Word256} {digit : UInt8} :
    appendDigit? radix w digit = none ↔ 2 ^ 256 ≤ w.toNat * radix.base.toNat + digit.toNat := by
  constructor
  · intro h
    by_contra hlt
    have hv := Word256.toNat_ofNat_of_lt (Nat.lt_of_not_le hlt)
    rw [appendDigit?_eq_some_iff.mpr hv] at h
    simp at h
  · intro h
    cases hv : appendDigit? radix w digit with
    | none => rfl
    | some v =>
      have hlt := v.toNat_lt
      have := appendDigit?_eq_some_iff.mp hv
      omega

/-! ### One step

What the reader does with the next character, by the kind of character. -/

/-- `Radix.digit?` finds the digit at its place in the alphabet. -/
private theorem digit?_eq_some_of_place? {radix : Radix} {c : Char} {d : Nat}
    (hd : radix.place? c = some d) :
    ∃ digit : UInt8, radix.digit? c = some digit ∧ digit.toNat = d := by
  rw [← Radix.digit?_eq_place?, Option.map_eq_some_iff] at hd
  exact hd

private theorem ne_separator_of_place? {radix : Radix} {c : Char} {d : Nat}
    (hd : radix.place? c = some d) :
    c ≠ '_' := by
  rintro rfl
  simp at hd

/-- `readDigits` takes a separator behind a digit. -/
theorem readDigits_separator (radix : Radix) (w : Word256) (index : Nat) (cs : List Char) :
    readDigits radix .digit w index ('_' :: cs) =
      readDigits radix (.separator index) w (index + 1) cs := by
  rw [readDigits, if_pos rfl, if_pos rfl]
  rfl

/-- `readDigits` reports a separator that does not stand behind a digit. -/
theorem readDigits_misplaced {before : Before} (hbefore : before ≠ .digit) (radix : Radix)
    (w : Word256) (index : Nat) (cs : List Char) :
    readDigits radix before w index ('_' :: cs) = .error (.invalidDigit index '_') := by
  rw [readDigits, if_pos rfl, if_neg hbefore]

/-- `readDigits` reports a character that is neither a digit nor a separator. -/
theorem readDigits_other {radix : Radix} {c : Char} (hc : c ≠ '_') (hdigit : ¬ radix.IsDigit c)
    (before : Before) (w : Word256) (index : Nat) (cs : List Char) :
    readDigits radix before w index (c :: cs) = .error (.invalidDigit index c) := by
  have hnone : radix.digit? c = none := by
    rw [← Option.map_eq_none_iff, Radix.digit?_eq_place?, Radix.place?_eq_none_iff]
    exact hdigit
  rw [readDigits, if_neg hc, hnone]

/-- `readDigits` rejects a digit that takes the integer too far. -/
theorem readDigits_overflow {radix : Radix} {c : Char} {d : Nat} (hd : radix.place? c = some d)
    {w : Word256} (hw : 2 ^ 256 ≤ w.toNat * radix.base.toNat + d) (before : Before) (index : Nat)
    (cs : List Char) :
    readDigits radix before w index (c :: cs) = .error .overflow := by
  obtain ⟨digit, hdigit, rfl⟩ := digit?_eq_some_of_place? hd
  have hnone := appendDigit?_eq_none_iff.mpr hw
  simp only [readDigits, if_neg (ne_separator_of_place? hd), hdigit, hnone]

/-- `readDigits` takes any other digit. -/
theorem readDigits_digit {radix : Radix} {c : Char} {d : Nat} (hd : radix.place? c = some d)
    {w v : Word256} (hv : v.toNat = w.toNat * radix.base.toNat + d) (before : Before) (index : Nat)
    (cs : List Char) :
    readDigits radix before w index (c :: cs) =
      readDigits radix .digit v (index + c.utf8Size) cs := by
  obtain ⟨digit, hdigit, rfl⟩ := digit?_eq_some_of_place? hd
  have hsome := appendDigit?_eq_some_iff.mpr hv
  simp only [readDigits, if_neg (ne_separator_of_place? hd), hdigit, hsome]

/-! ### Acceptance -/

/-- What the reader expects: behind a digit further digits, otherwise a digit first. -/
def Expected (radix : Radix) : Before → List Char → Prop
  | .start => Digits radix
  | .digit => Further radix
  | .separator _ => Digits radix

/-- `Expected` is the same from a digit on, whatever stands before it. -/
theorem expected_cons_iff {radix : Radix} {before : Before} {c : Char} {cs : List Char}
    (hc : c ≠ '_') :
    Expected radix before (c :: cs) ↔ radix.IsDigit c ∧ Further radix cs := by
  cases before with
  | digit => exact further_cons_iff hc
  | start | separator => exact digits_cons_iff

/-- What becomes of the character `c` behind the characters `done`, whatever follows it. -/
inductive Next (radix : Radix) (before : Before) (w : Word256) (index : Nat) (done : List Char)
    (c : Char) : Prop where
  /-- The reader goes on, with the integer of one more character. -/
  | passed {next : Before} {v : Word256} (hv : v.toNat = radix.value (done ++ [c]))
      (hexpected : ∀ cs, Expected radix before (c :: cs) ↔ Expected radix next cs)
      (hread : ∀ cs, readDigits radix before w index (c :: cs) =
        readDigits radix next v (index + c.utf8Size) cs)
  /-- The character is a digit that takes the integer too far. -/
  | overflowing (hlarge : 2 ^ 256 ≤ radix.value (done ++ [c]))
      (hexpected : Expected radix before [c])
      (hread : ∀ cs, readDigits radix before w index (c :: cs) = .error .overflow)
  /-- The character has no place there. -/
  | invalid (hexpected : ∀ cs, ¬ Expected radix before (c :: cs))
      (hread : ∀ cs, readDigits radix before w index (c :: cs) = .error (.invalidDigit index c))

/-- `readDigits` does one of three things with the next character, and goes on exactly where the
    grammar does as long as the integer fits. -/
private theorem readDigits_next {radix : Radix} {w : Word256} {done : List Char}
    (hw : w.toNat = radix.value done) (before : Before) (index : Nat) (c : Char) :
    Next radix before w index done c := by
  by_cases hc : c = '_'
  · subst hc
    -- A separator leaves the integer alone, and is in place behind a digit only.
    have hdone : w.toNat = radix.value (done ++ ['_']) := by
      rw [Radix.value_append_other radix.place?_separator, hw]
    cases before with
    | digit =>
      have hexpected : ∀ cs, Expected radix .digit ('_' :: cs) ↔
          Expected radix (.separator index) cs := fun _ => further_separator_iff
      exact .passed hdone hexpected fun cs => readDigits_separator radix w index cs
    | start | separator =>
      -- Elsewhere the grammar asks for a digit.
      refine .invalid ?_ fun cs => readDigits_misplaced (by simp) radix w index cs
      intro cs hcs
      exact radix.not_isDigit_separator (digits_cons_iff.mp hcs).1
  · by_cases hdigit : radix.IsDigit c
    · -- A digit is taken if the integer still fits.
      obtain ⟨d, hd⟩ := Radix.isDigit_iff_exists_place.mp hdigit
      have hvalue := Radix.value_append_digit hd done
      rw [← hw] at hvalue
      by_cases hfits : w.toNat * radix.base.toNat + d < 2 ^ 256
      · have hnext := Word256.toNat_ofNat_of_lt hfits
        have hexpected : ∀ cs, Expected radix before (c :: cs) ↔ Expected radix .digit cs := by
          intro cs
          rw [expected_cons_iff hc]
          exact and_iff_right hdigit
        exact .passed (hnext.trans hvalue.symm) hexpected fun cs =>
          readDigits_digit hd hnext before index cs
      · have hlarge := Nat.le_of_not_lt hfits
        exact .overflowing (hvalue ▸ hlarge) ((expected_cons_iff hc).mpr ⟨hdigit, .nil⟩)
          fun cs => readDigits_overflow hd hlarge before index cs
    · -- Any other character has no place anywhere.
      refine .invalid ?_ fun cs => readDigits_other hc hdigit before w index cs
      intro cs hcs
      exact hdigit ((expected_cons_iff hc).mp hcs).1

/-- From any point on, `readDigits` accepts what the grammar expects there, if the integer of all
    digits fits. The characters in `done` are those behind the reader. -/
theorem readDigits_eq_ok_iff {radix : Radix} {before : Before} {w v : Word256} {index : Nat}
    {done cs : List Char} (hw : w.toNat = radix.value done) :
    readDigits radix before w index cs = .ok v ↔
      Expected radix before cs ∧ v.toNat = radix.value (done ++ cs) := by
  induction cs generalizing before w index done with
  | nil =>
    -- A text may only end behind a digit.
    cases before with
    | digit => simp [readDigits, Expected, Further.nil, ← hw, Word256.toNat_inj, eq_comm]
    | start | separator => simp [readDigits, Expected, not_digits_nil]
  | cons c cs ih =>
    rw [List.append_cons]
    cases readDigits_next hw before index c with
    | passed hv hexpected hread => rw [hread, ih hv, hexpected]
    | overflowing hlarge _ hread =>
      -- The integer only grows from here on, so no word holds that of the whole text.
      have hgrow := radix.value_le_append (done ++ [c]) cs
      have hlt := v.toNat_lt
      rw [hread]
      simp only [reduceCtorEq, false_iff]
      rintro ⟨-, hv⟩
      omega
    | invalid hexpected hread => simp [hread, hexpected]

/-- From any point on, `readDigits` rejects what the grammar expects there for one reason only: that
    the integer of all digits does not fit. Nothing behind it is looked at then. -/
theorem readDigits_eq_overflow {radix : Radix} {before : Before} {w : Word256} {index : Nat}
    {done cs : List Char} (hw : w.toNat = radix.value done) (hcs : Expected radix before cs)
    (hlarge : 2 ^ 256 ≤ radix.value (done ++ cs)) (rest : List Char) :
    readDigits radix before w index (cs ++ rest) = .error .overflow := by
  induction cs generalizing before w index done with
  | nil =>
    -- The word already holds the integer of all digits.
    have hlt := w.toNat_lt
    rw [List.append_nil] at hlarge
    omega
  | cons c cs ih =>
    rw [List.append_cons] at hlarge
    rw [List.cons_append]
    cases readDigits_next hw before index c with
    | passed hv hexpected hread =>
      rw [hread]
      exact ih hv ((hexpected cs).mp hcs) hlarge
    | overflowing _ _ hread => exact hread (cs ++ rest)
    | invalid hexpected _ => exact absurd hcs (hexpected cs)

/-- `readDigits` rejects a text for its size only if the text begins with what the grammar expects,
    and the integer of those digits does not fit. -/
theorem exists_front_of_overflow {radix : Radix} {before : Before} {w : Word256} {index : Nat}
    {done cs : List Char} (hw : w.toNat = radix.value done)
    (h : readDigits radix before w index cs = .error .overflow) :
    ∃ front rest, cs = front ++ rest ∧ Expected radix before front ∧
      2 ^ 256 ≤ radix.value (done ++ front) := by
  induction cs generalizing before w index done with
  | nil => cases before <;> simp [readDigits] at h
  | cons c cs ih =>
    cases readDigits_next hw before index c with
    | passed hv hexpected hread =>
      rw [hread] at h
      obtain ⟨front, rest, rfl, hfront, hlarge⟩ := ih hv h
      rw [← List.append_cons] at hlarge
      exact ⟨c :: front, rest, rfl, (hexpected front).mpr hfront, hlarge⟩
    | overflowing hlarge hexpected _ =>
      -- The digit itself is too much, and the reader stops there.
      exact ⟨[c], cs, rfl, hexpected, hlarge⟩
    | invalid _ hread => simp [hread] at h

/-! ## Whole literals -/

/-- Whether a text begins with a hexadecimal marker. -/
def IsMarked (text : List Char) : Prop := ∃ marker ∈ markers .hexadecimal, marker <+: text

instance (text : List Char) : Decidable (IsMarked text) :=
  inferInstanceAs (Decidable (∃ marker ∈ markers .hexadecimal, marker <+: text))

/-- `IsMarked` texts start with one of the two markers. -/
theorem isMarked_iff {text : List Char} :
    IsMarked text ↔ ['0', 'x'] <+: text ∨ ['0', 'X'] <+: text := by
  simp [IsMarked, markers]

/-- `splitMarker` takes a marked text for hexadecimal behind the marker. -/
theorem splitMarker_marked {marker : List Char} (hmarker : marker ∈ markers .hexadecimal)
    (body : List Char) :
    splitMarker (marker ++ body) = (.hexadecimal, body) := by
  simp only [markers, List.mem_cons, List.not_mem_nil, or_false] at hmarker
  rcases hmarker with rfl | rfl <;> rfl

/-- `splitMarker` takes any other text for decimal as a whole. -/
theorem splitMarker_unmarked {text : List Char} (hmarked : ¬ IsMarked text) :
    splitMarker text = (.decimal, text) := by
  unfold splitMarker
  split
  · exact absurd (isMarked_iff.mpr (.inl ⟨_, rfl⟩)) hmarked
  · exact absurd (isMarked_iff.mpr (.inr ⟨_, rfl⟩)) hmarked
  · rfl

/-- Decimal `Digits` do not look like a hexadecimal marker. -/
private theorem not_isMarked_of_digits {body : List Char} (hbody : Digits .decimal body) :
    ¬ IsMarked body := by
  intro hmarked
  rcases isMarked_iff.mp hmarked with ⟨cs, rfl⟩ | ⟨cs, rfl⟩
  all_goals
    have hfurther := (digits_cons_iff.mp hbody).2
    exact absurd ((further_cons_iff (by decide)).mp hfurther).1 (by decide)

/-- `Denotes` asks for `Digits` behind the marker, and gives their integer. -/
theorem denotes_iff {text : List Char} {n : Nat} :
    Denotes text n ↔
      Digits (splitMarker text).1 (splitMarker text).2 ∧
      n = (splitMarker text).1.value (splitMarker text).2 := by
  constructor
  · rintro ⟨radix, marker, hmarker, body, rfl, hdigits, hvalue⟩
    cases radix with
    | hexadecimal =>
      rw [splitMarker_marked hmarker]
      exact ⟨hdigits, hvalue⟩
    | decimal =>
      -- Without a marker the text must not look as if it had one.
      have hnil : marker = [] := by simpa [markers] using hmarker
      rw [hnil, List.nil_append, splitMarker_unmarked (not_isMarked_of_digits hdigits)]
      exact ⟨hdigits, hvalue⟩
  · rintro ⟨hdigits, hvalue⟩
    by_cases hmarked : IsMarked text
    · obtain ⟨marker, hmarker, body, rfl⟩ := hmarked
      rw [splitMarker_marked hmarker] at hdigits hvalue
      exact ⟨.hexadecimal, marker, hmarker, body, rfl, hdigits, hvalue⟩
    · -- Without a marker the whole text is decimal.
      rw [splitMarker_unmarked hmarked] at hdigits hvalue
      exact ⟨.decimal, [], by decide, text, rfl, hdigits, hvalue⟩

/-- `Denotes` gives a text one integer at most. -/
theorem Denotes.unique {text : List Char} {m n : Nat} (hm : Denotes text m) (hn : Denotes text n) :
    m = n := by
  rw [(denotes_iff.mp hm).2, (denotes_iff.mp hn).2]

/-- `readWord` takes a text, wherever it stands, for the word of which it is a literal. -/
theorem readWord_eq_ok_iff {text : List Char} {offset : Nat} {w : Word256} :
    readWord text offset = .ok w ↔ Denotes text w.toNat := by
  rw [denotes_iff, readWord_eq]
  exact readDigits_eq_ok_iff (show Word256.zero.toNat = Radix.value _ [] from Word256.toNat_zero)

/-- `readWord` rejects the literal of an integer that no word holds for its size. -/
theorem readWord_eq_overflow {text : List Char} {n : Nat} (h : Denotes text n) (hn : 2 ^ 256 ≤ n)
    (offset : Nat) :
    readWord text offset = .error .overflow := by
  obtain ⟨hdigits, rfl⟩ := denotes_iff.mp h
  have hcs : Expected _ .start (splitMarker text).2 := hdigits
  rw [readWord_eq, ← List.append_nil (splitMarker text).2]
  exact readDigits_eq_overflow
    (show Word256.zero.toNat = Radix.value _ [] from Word256.toNat_zero) hcs hn []

/-- `readWord` reports a sign in front, which is neither a marker nor a digit, and does not look at
    anything behind it. -/
theorem readWord_sign (cs : List Char) (offset : Nat) :
    readWord ('-' :: cs) offset = .error (.invalidDigit offset '-') := by
  have hdigit : ¬ Radix.decimal.IsDigit '-' := by decide
  rw [readWord_eq]
  exact readDigits_other (by decide) hdigit _ _ _ _

end FieldWord.Literal

namespace FieldWord.Word256

/-- `readAt` gives what `Literal.readWord` reads. -/
@[simp] theorem value_readAt (literal : String) (offset : Nat) :
    (readAt literal offset).value = Literal.readWord literal.toList offset := by
  unfold readAt
  split <;> rename_i h <;> rw [h] <;> rfl

/-- `read` gives what `Literal.readWord` reads from the start. -/
@[simp] theorem value_read (literal : String) :
    (read literal).value = Literal.readWord literal.toList 0 :=
  value_readAt literal 0

/-- `read` accepts exactly the literals of integers below `2 ^ 256`, and gives the integer they
    denote: the integer of a word is below that bound by itself. -/
theorem read_eq_ok_iff_denotes (literal : String) (w : Word256) :
    (read literal).value = .ok w ↔ Literal.Denotes literal.toList w.toNat := by
  rw [value_read, Literal.readWord_eq_ok_iff]

end FieldWord.Word256

import FieldWord.Proofs.Literal.Sign

/-!
# Spellings of literals

An integer has many literals. Separators, the case of letters and zeros in front of the digits are a
matter of spelling, and make no difference to what is read. That holds of rejected texts as well, as
long as they are rejected for the size of the integer: the reader stops at the digit that is too
much, so the part of the text up to that digit follows the grammar, and whatever stands behind it is
not looked at in any spelling.

`Settles` says this of the digits of a text, and is kept by every change of spelling; the result of
the reader depends on nothing else.

## Key results

- `Settles.unseparated`, `Settles.separated`, `Settles.lowered`, `Settles.zeros`: the changes of
  spelling
- `exists_settles`, `readWord_of_settles`: what is read from digits that settle
- `Respelling.readWord_eq`: two spellings of one text are read alike
- `Value.read_respelling`: the readers of all three types
-/

namespace FieldWord.Radix

variable {radix : Radix}

private theorem ne_separator_of_isDigit {c : Char} (hc : radix.IsDigit c) : c ≠ '_' := by
  intro h
  rw [h] at hc
  exact radix.not_isDigit_separator hc

/-- `place?` of a digit is the same in lower case, as the alphabet is. -/
private theorem place?_toLower {c : Char} (hc : radix.IsDigit c) :
    radix.place? c.toLower = radix.place? c := by
  have hall : radix.alphabet.all (fun c => c.toLower = c) = true := by cases radix <;> rfl
  have hlower : c.toLower.toLower = c.toLower := of_decide_eq_true (List.all_eq_true.mp hall _ hc)
  rw [place?, hlower, place?]

/-- `digits` starts with the place of the first character, if it has one. -/
private theorem digits_cons (c : Char) (cs : List Char) :
    radix.digits (c :: cs) = (radix.place? c).toList ++ radix.digits cs := by
  unfold digits
  cases hc : radix.place? c <;> simp [hc]

/-- `value` depends on nothing but the digits. -/
private theorem value_eq_of_digits_eq {as bs : List Char} (h : radix.digits as = radix.digits bs) :
    radix.value as = radix.value bs := by
  rw [value, h, value]

end FieldWord.Radix

namespace FieldWord.Literal

variable {radix : Radix} {body : List Char} {n : Nat}

/-! ## Spellings of a text -/

/-- The sign in front of a text, if there is one. -/
def signOf (text : List Char) : List Char := if text.head? = some '-' then ['-'] else []

/-- What follows the sign. -/
def magnitudeOf (text : List Char) : List Char := text.drop (signOf text).length

/-- The sign and the marker in front of the digits. -/
def leadOf (text : List Char) : List Char :=
  signOf text ++ (magnitudeOf text).take (markerLength (magnitudeOf text))

/-- The digits of a text: what follows the sign and the marker. -/
def digitsOf (text : List Char) : List Char := bodyOf (magnitudeOf text)

/-- The other spellings of a text. -/
inductive Respelling (text : List Char) : List Char → Prop where
  /-- Without the separators. -/
  | unseparated : Respelling text (text.filter (· ≠ '_'))
  /-- With a separator between two adjacent digits. -/
  | separated {as bs : List Char} {c d : Char} (hdigits : digitsOf text = as ++ c :: d :: bs)
      (hc : (radixOf (magnitudeOf text)).IsDigit c) (hd : (radixOf (magnitudeOf text)).IsDigit d) :
      Respelling text (leadOf text ++ (as ++ c :: '_' :: d :: bs))
  /-- With the letters in lower case. -/
  | lowered : Respelling text (text.map Char.toLower)
  /-- With zeros in front of the digits. -/
  | zeros (count : Nat) :
      Respelling text (leadOf text ++ (List.replicate count '0' ++ digitsOf text))

/-- No fault was found in the spelling of a text: if it was rejected, then for the size of its
    integer. -/
def WellSpelled {α : Type} (result : Except LiteralError α) : Prop :=
  ∀ error, result = .error error → error ∈ [LiteralError.overflow, .notInField]

/-- `WellSpelled` does not depend on what a result is wrapped in. -/
private theorem WellSpelled.of_map {α β : Type} {f : α → β} {result : Except LiteralError α}
    (h : WellSpelled (result.map f)) : WellSpelled result :=
  fun error herror => h error (map_eq_error_iff.mpr herror)

/-! ## Spellings of digits that follow the grammar -/

/-- `Expected` behind a digit does not depend on what stands before it. -/
private theorem expected_append_digit (before : Before) {c : Char} (hc : radix.IsDigit c)
    (as bs : List Char) :
    Expected radix before (as ++ c :: bs) ↔
      Expected radix before (as ++ [c]) ∧ Further radix bs := by
  induction as generalizing before with
  | nil =>
    have hne := Radix.ne_separator_of_isDigit hc
    rw [List.nil_append, List.nil_append, expected_cons_iff hne, expected_cons_iff hne]
    simp [Further.nil, hc]
  | cons a as ih =>
    rw [List.cons_append, List.cons_append]
    by_cases ha : a = '_'
    · subst ha
      cases before with
      | digit =>
        -- Behind the separator the reader expects digits as it does at the start.
        have hstart : ∀ cs, Expected radix .digit ('_' :: cs) ↔ Expected radix .start cs :=
          fun _ => further_separator_iff
        rw [hstart, hstart, ih]
      | start | separator => simp [Expected, digits_cons_iff, radix.not_isDigit_separator]
    · -- A digit is taken from both texts alike.
      have hdigit : ∀ cs,
          Expected radix before (a :: cs) ↔ radix.IsDigit a ∧ Expected radix .digit cs :=
        fun _ => expected_cons_iff ha
      rw [hdigit, hdigit, ih, and_assoc]

/-- `Digits` follow the grammar with a further separator between two of them. -/
private theorem Digits.separated {as bs : List Char} {c d : Char} (hc : radix.IsDigit c)
    (hd : radix.IsDigit d) (h : Digits radix (as ++ c :: d :: bs)) :
    Digits radix (as ++ c :: '_' :: d :: bs) := by
  have hsplit := expected_append_digit .start hc as
  obtain ⟨hfront, hfurther⟩ := (hsplit (d :: bs)).mp h
  have hbs := ((further_cons_iff (Radix.ne_separator_of_isDigit hd)).mp hfurther).2
  exact (hsplit ('_' :: d :: bs)).mpr ⟨hfront, .separated hd hbs⟩

/-- `filter` of the separators keeps a digit in front. -/
private theorem filter_digit_cons {c : Char} (hc : radix.IsDigit c) (cs : List Char) :
    (c :: cs).filter (· ≠ '_') = c :: cs.filter (· ≠ '_') :=
  List.filter_cons_of_pos (by simpa using Radix.ne_separator_of_isDigit hc)

/-- `Further` digits follow the grammar without the separators. -/
private theorem Further.unseparated {cs : List Char} (h : Further radix cs) :
    Further radix (cs.filter (· ≠ '_')) := by
  induction h with
  | nil => exact .nil
  | digit hc _ ih =>
    rw [filter_digit_cons hc]
    exact .digit hc ih
  | separated hc _ ih =>
    rw [List.filter_cons_of_neg (by simp), filter_digit_cons hc]
    exact .digit hc ih

/-- `Digits` follow the grammar without the separators. -/
private theorem Digits.unseparated (h : Digits radix body) :
    Digits radix (body.filter (· ≠ '_')) := by
  cases h with
  | mk hc hcs =>
    rw [filter_digit_cons hc]
    exact .mk hc hcs.unseparated

/-- `Further` digits in lower case follow the grammar as before, and are the same digits. -/
private theorem Further.lowered {cs : List Char} (h : Further radix cs) :
    Further radix (cs.map Char.toLower) ∧ radix.digits (cs.map Char.toLower) = radix.digits cs := by
  induction h with
  | nil => exact ⟨.nil, rfl⟩
  | digit hc _ ih =>
    refine ⟨.digit (Radix.isDigit_of_mem_alphabet hc) ih.1, ?_⟩
    rw [List.map_cons, Radix.digits_cons, Radix.digits_cons, Radix.place?_toLower hc, ih.2]
  | separated hc _ ih =>
    refine ⟨.separated (Radix.isDigit_of_mem_alphabet hc) ih.1, ?_⟩
    show radix.digits ('_' :: _ :: _) = _
    rw [Radix.digits_cons, Radix.digits_cons, Radix.place?_toLower hc, ih.2, Radix.digits_cons,
      Radix.digits_cons]

/-- `Digits` in lower case follow the grammar as before, and denote the same integer. -/
private theorem Digits.lowered (h : Digits radix body) :
    Digits radix (body.map Char.toLower) ∧
      radix.value (body.map Char.toLower) = radix.value body := by
  cases h with
  | mk hc hcs =>
    obtain ⟨hfurther, hdigits⟩ := hcs.lowered
    refine ⟨.mk (Radix.isDigit_of_mem_alphabet hc) hfurther, Radix.value_eq_of_digits_eq ?_⟩
    rw [List.map_cons, Radix.digits_cons, Radix.digits_cons, Radix.place?_toLower hc, hdigits]

/-- `Digits` may follow other digits. -/
private theorem Digits.further (h : Digits radix body) : Further radix body := by
  cases h with
  | mk hc hcs => exact .digit hc hcs

/-- `Digits` follow the grammar with zeros in front. -/
private theorem Digits.zeros (h : Digits radix body) (count : Nat) :
    Digits radix (List.replicate count '0' ++ body) := by
  have hzero : radix.IsDigit '0' := by cases radix <;> decide
  induction count with
  | zero => exact h
  | succ count ih =>
    rw [List.replicate_succ, List.cons_append]
    exact .mk hzero ih.further

/-! ## Digits that settle -/

/-- The reader comes to a result about the integer `n`: that is the integer of digits that follow
    the grammar, and these are all there is unless no word holds it. -/
def Settles (radix : Radix) (body : List Char) (n : Nat) : Prop :=
  ∃ front rest, body = front ++ rest ∧ Digits radix front ∧ radix.value front = n ∧
    (rest = [] ∨ 2 ^ 256 ≤ n)

namespace Settles

/-- `Settles` is kept without the separators. -/
theorem unseparated (h : Settles radix body n) :
    Settles radix (body.filter (· ≠ '_')) n := by
  obtain ⟨front, rest, rfl, hfront, hn, hrest⟩ := h
  -- The separator has no place in the alphabet, so the digits are the same.
  have hdigits : radix.digits (front.filter (· ≠ '_')) = radix.digits front := by
    unfold Radix.digits
    rw [List.filterMap_filter]
    apply List.filterMap_congr
    intro c _
    by_cases hc : c = '_' <;> simp [hc]
  refine ⟨front.filter (· ≠ '_'), rest.filter (· ≠ '_'), List.filter_append _ _, hfront.unseparated,
    ?_, ?_⟩
  · rw [Radix.value_eq_of_digits_eq hdigits, hn]
  · exact hrest.imp_left fun hnil => by rw [hnil, List.filter_nil]

/-- `Settles` is kept in lower case. -/
theorem lowered (h : Settles radix body n) : Settles radix (body.map Char.toLower) n := by
  obtain ⟨front, rest, rfl, hfront, hn, hrest⟩ := h
  obtain ⟨hlower, hvalue⟩ := hfront.lowered
  refine ⟨front.map Char.toLower, rest.map Char.toLower, List.map_append, hlower, hvalue.trans hn,
    ?_⟩
  exact hrest.imp_left fun hnil => by rw [hnil, List.map_nil]

/-- `Settles` is kept with zeros in front. -/
theorem zeros (h : Settles radix body n) (count : Nat) :
    Settles radix (List.replicate count '0' ++ body) n := by
  obtain ⟨front, rest, rfl, hfront, hn, hrest⟩ := h
  refine ⟨List.replicate count '0' ++ front, rest, (List.append_assoc _ _ _).symm,
    hfront.zeros count, ?_, hrest⟩
  rw [Radix.value_replicate_zero_append, hn]

/-- `Settles` is kept with a further separator between two digits. If the first of them ends the
    part that follows the grammar, or stands behind it, then that part is as it was; otherwise both
    of them are in it. -/
theorem separated {as bs : List Char} {c d : Char} (hc : radix.IsDigit c)
    (hd : radix.IsDigit d) (h : Settles radix (as ++ c :: d :: bs) n) :
    Settles radix (as ++ c :: '_' :: d :: bs) n := by
  obtain ⟨front, rest, hbody, hfront, hn, hrest⟩ := h
  -- The part that follows the grammar ends before the second digit, or has it.
  have hcases : (∃ cs, as ++ [c] = front ++ cs ∧ rest = cs ++ d :: bs) ∨
      ∃ cs, front = as ++ c :: d :: cs ∧ bs = cs ++ rest := by
    rw [List.append_cons, List.append_eq_append_iff] at hbody
    rcases hbody with ⟨cs, hfront', hbs⟩ | hleft
    · cases cs with
      | nil => exact .inl ⟨[], by simpa using hfront'.symm, hbs.symm⟩
      | cons a cs =>
        obtain ⟨rfl, htail⟩ := List.cons.inj hbs
        exact .inr ⟨cs, by simpa using hfront', htail⟩
    · exact .inl hleft
  rcases hcases with ⟨cs, has, hrest'⟩ | ⟨cs, rfl, rfl⟩
  · -- The separator comes behind that part, which is too large already.
    have hlarge : 2 ^ 256 ≤ n := hrest.resolve_left (by simp [hrest'])
    refine ⟨front, cs ++ '_' :: d :: bs, ?_, hfront, hn, .inr hlarge⟩
    rw [List.append_cons, has, List.append_assoc]
  · -- The separator comes into that part, which follows the grammar with it.
    refine ⟨as ++ c :: '_' :: d :: cs, rest, by simp, hfront.separated hc hd, ?_, hrest⟩
    rw [← hn]
    apply Radix.value_eq_of_digits_eq
    simp [Radix.digits_append, Radix.digits_cons]

end Settles

/-! ## What is read -/

/-- `Settles` in decimal rules out that the text looks as if it had a marker. -/
private theorem Settles.not_isMarked (h : Settles .decimal body n) : ¬ IsMarked body := by
  intro hmarked
  -- The second character of a marker is not a decimal digit.
  have htext : ∃ x tail, body = '0' :: x :: tail ∧ x ≠ '_' ∧ ¬ Radix.decimal.IsDigit x := by
    rcases isMarked_iff.mp hmarked with ⟨tail, htail⟩ | ⟨tail, htail⟩
    · exact ⟨'x', tail, htail.symm, by decide, by decide⟩
    · exact ⟨'X', tail, htail.symm, by decide, by decide⟩
  obtain ⟨x, tail, htext, hne, hother⟩ := htext
  obtain ⟨front, rest, rfl, hfront, hn, hrest⟩ := h
  cases hfront with
  | mk hc hcs =>
    rename_i c cs
    cases cs with
    | nil =>
      -- The zero alone is not too large, so nothing could stand behind it.
      obtain ⟨rfl, rfl⟩ := List.cons.inj (show c :: rest = '0' :: x :: tail from htext)
      have hlarge := hrest.resolve_left (List.cons_ne_nil x tail)
      rw [← hn, Radix.value_zero_cons, Radix.value_nil] at hlarge
      omega
    | cons d cs =>
      -- The second character would have to be a digit.
      obtain ⟨-, htail⟩ := List.cons.inj (show c :: d :: (cs ++ rest) = '0' :: x :: tail from htext)
      obtain ⟨rfl, -⟩ := List.cons.inj htail
      exact hother ((further_cons_iff hne).mp hcs).1

/-- `splitMarker` finds a marker in front of digits that settle. -/
private theorem Settles.splitMarker_eq (h : Settles radix body n) {marker : List Char}
    (hmarker : marker ∈ markers radix) :
    splitMarker (marker ++ body) = (radix, body) := by
  cases radix with
  | hexadecimal => exact splitMarker_marked hmarker body
  | decimal =>
    have hnil : marker = [] := by simpa [markers] using hmarker
    rw [hnil, List.nil_append, splitMarker_unmarked h.not_isMarked]

/-- `readWord` takes digits that settle for their integer, or rejects them for its size. -/
theorem readWord_of_settles (h : Settles radix body n) {marker : List Char}
    (hmarker : marker ∈ markers radix) (offset : Nat) :
    readWord (marker ++ body) offset =
      if n < 2 ^ 256 then .ok (.ofNat n) else .error .overflow := by
  have hsplit := h.splitMarker_eq hmarker
  obtain ⟨front, rest, rfl, hfront, hn, hrest⟩ := h
  by_cases hfits : n < 2 ^ 256
  · -- All digits follow the grammar, and are read.
    have hnil : rest = [] := hrest.resolve_right (by omega)
    rw [if_pos hfits, readWord_eq_ok_iff, Word256.toNat_ofNat_of_lt hfits, hnil, List.append_nil]
    exact ⟨radix, marker, hmarker, front, rfl, hfront, hn.symm⟩
  · -- The digits in front are too large, whatever follows them.
    have hcs : Expected radix .start front := hfront
    have hlarge : 2 ^ 256 ≤ radix.value ([] ++ front) := by
      rw [List.nil_append, hn]
      omega
    rw [if_neg hfits, readWord_eq, hsplit]
    exact readDigits_eq_overflow (Word256.toNat_zero.trans radix.value_nil.symm) hcs hlarge rest

/-- If `readWord` finds no fault in a text, then its digits settle. -/
theorem exists_settles {text : List Char} {offset : Nat} (h : WellSpelled (readWord text offset)) :
    ∃ n, Settles (radixOf text) (bodyOf text) n := by
  cases hread : readWord text offset with
  | ok w =>
    -- A literal follows the grammar as a whole.
    have hdigits := (denotes_iff.mp (readWord_eq_ok_iff.mp hread)).1
    rw [splitMarker_eq] at hdigits
    exact ⟨_, bodyOf text, [], (List.append_nil _).symm, hdigits, rfl, .inl rfl⟩
  | error error =>
    have hmem := h error hread
    -- Words are not compared with the prime, so the other reason is not met here.
    have hoverflow : error = .overflow := by
      cases (readWord_eq_iff_verdict _ _ _).mp hread with
      | overflowing => rfl
      | empty | bad | trailing => simp at hmem
    rw [hoverflow, readWord_eq_readDigits] at hread
    have hzero : Word256.zero.toNat = (radixOf text).value [] := Word256.toNat_zero
    obtain ⟨front, rest, hbody, hfront, hlarge⟩ := exists_front_of_overflow hzero hread
    exact ⟨_, front, rest, hbody, hfront, rfl, .inr hlarge⟩

/-- `Settles` rules out a sign. -/
private theorem Settles.head?_ne_sign (h : Settles radix body n) {marker : List Char}
    (hmarker : marker ∈ markers radix) :
    (marker ++ body).head? ≠ some '-' := by
  obtain ⟨front, rest, rfl, hfront, hn, -⟩ := h
  have hdenotes : Denotes (marker ++ front) n :=
    ⟨radix, marker, hmarker, front, rfl, hfront, hn.symm⟩
  have hne : marker ++ front ≠ [] := by
    cases hfront
    simp
  rw [← List.append_assoc, List.head?_append_of_ne_nil _ hne]
  exact hdenotes.head?_ne_sign

/-! ## Whole texts -/

/-- `signOf` and `magnitudeOf` make up the text. -/
private theorem signOf_append_magnitudeOf (text : List Char) :
    signOf text ++ magnitudeOf text = text := by
  unfold magnitudeOf signOf
  split
  · rename_i hhead
    obtain ⟨magnitude, rfl⟩ := List.head?_eq_some_iff.mp hhead
    rfl
  · rfl

/-- `signOf` finds the sign that was put in front of a text without one. -/
private theorem signOf_append (text : List Char) {magnitude : List Char}
    (h : magnitude.head? ≠ some '-') :
    signOf (signOf text ++ magnitude) = signOf text ∧
    magnitudeOf (signOf text ++ magnitude) = magnitude := by
  unfold magnitudeOf signOf
  split
  · exact ⟨rfl, rfl⟩
  · rw [List.nil_append, if_neg h]
    exact ⟨rfl, rfl⟩

/-- `markerLength` gives a marker of the radix of the text. -/
private theorem take_markerLength_mem (text : List Char) :
    text.take (markerLength text) ∈ markers (radixOf text) := by
  unfold markerLength radixOf
  split
  · rename_i hmarked
    rcases isMarked_iff.mp hmarked with ⟨body, rfl⟩ | ⟨body, rfl⟩ <;> simp [markers]
  · simp [markers]

/-- `signOf`, the marker and `digitsOf` make up the text. -/
private theorem parts_eq (text : List Char) :
    signOf text ++ ((magnitudeOf text).take (markerLength (magnitudeOf text)) ++ digitsOf text) =
      text := by
  rw [digitsOf, bodyOf, List.take_append_drop, signOf_append_magnitudeOf]

/-- `Respelling` keeps the sign, the radix of the marker, and the integer on which the digits
    settle. -/
theorem Respelling.exists_parts {text respelled : List Char} (hr : Respelling text respelled)
    (h : Settles (radixOf (magnitudeOf text)) (digitsOf text) n) :
    ∃ marker ∈ markers (radixOf (magnitudeOf text)), ∃ body,
      respelled = signOf text ++ (marker ++ body) ∧
        Settles (radixOf (magnitudeOf text)) body n := by
  have hmarker := take_markerLength_mem (magnitudeOf text)
  have hparts := parts_eq text
  cases hr with
  | unseparated =>
    refine ⟨_, hmarker, (digitsOf text).filter (· ≠ '_'), ?_, h.unseparated⟩
    -- There is no separator in front of the digits.
    have hsign : (signOf text).filter (· ≠ '_') = signOf text := by
      unfold signOf
      split <;> rfl
    have hkept : ∀ (radix : Radix), ∀ marker ∈ markers radix, marker.filter (· ≠ '_') = marker := by
      intro radix
      cases radix <;> decide
    have hfilter := congrArg (List.filter (· ≠ '_')) hparts
    rw [List.filter_append, List.filter_append, hsign, hkept _ _ hmarker] at hfilter
    exact hfilter.symm
  | lowered =>
    -- In lower case the marker is the other one, or the same.
    have hsign : (signOf text).map Char.toLower = signOf text := by
      unfold signOf
      split <;> rfl
    have hlower : ∀ (radix : Radix), ∀ marker ∈ markers radix,
        marker.map Char.toLower ∈ markers radix := by
      intro radix
      cases radix <;> decide
    refine ⟨_, hlower _ _ hmarker, (digitsOf text).map Char.toLower, ?_, h.lowered⟩
    have hmap := congrArg (List.map Char.toLower) hparts
    rw [List.map_append, List.map_append, hsign] at hmap
    exact hmap.symm
  | separated hdigits hc hd =>
    rw [hdigits] at h
    exact ⟨_, hmarker, _, List.append_assoc _ _ _, h.separated hc hd⟩
  | zeros count => exact ⟨_, hmarker, _, List.append_assoc _ _ _, h.zeros count⟩

/-- `readWord` reads the magnitude alike in every spelling, if it finds no fault in it, and the sign
    is the same. -/
theorem Respelling.readWord_eq {text respelled : List Char} (hr : Respelling text respelled)
    {offset : Nat} (h : WellSpelled (readWord (magnitudeOf text) offset)) :
    signOf respelled = signOf text ∧
      readWord (magnitudeOf respelled) offset = readWord (magnitudeOf text) offset := by
  obtain ⟨n, hn⟩ := exists_settles h
  obtain ⟨marker, hmarker, body, hrespelled, hbody⟩ := hr.exists_parts hn
  obtain ⟨hsign, hmagnitude⟩ := signOf_append text (hbody.head?_ne_sign hmarker)
  rw [← hrespelled] at hsign hmagnitude
  refine ⟨hsign, ?_⟩
  -- Both magnitudes settle on the same integer.
  have hread := readWord_of_settles hn (take_markerLength_mem (magnitudeOf text)) offset
  rw [bodyOf, List.take_append_drop] at hread
  rw [hmagnitude, readWord_of_settles hbody hmarker, hread]

/-- `magnitudeOf` a text without a sign is the text. -/
private theorem magnitudeOf_eq_self {text : List Char} (h : signOf text = []) :
    magnitudeOf text = text := by
  rw [magnitudeOf, h, List.length_nil, List.drop_zero]

/-- A text in which `readWord` finds no fault has no sign. -/
private theorem signOf_eq_nil {text : List Char} {offset : Nat}
    (h : WellSpelled (readWord text offset)) :
    signOf text = [] := by
  refine if_neg ?_
  intro hhead
  obtain ⟨magnitude, rfl⟩ := List.head?_eq_some_iff.mp hhead
  have hmem := h _ (readWord_sign magnitude offset)
  simp at hmem

/-- `readWord` reads a text alike in every spelling, if it finds no fault in it. -/
private theorem Respelling.readWord_eq_unsigned {text respelled : List Char}
    (hr : Respelling text respelled) {offset : Nat} (h : WellSpelled (readWord text offset)) :
    readWord respelled offset = readWord text offset := by
  have hsign := signOf_eq_nil h
  have htext := magnitudeOf_eq_self hsign
  rw [← htext] at h
  obtain ⟨hsame, hread⟩ := hr.readWord_eq h
  rwa [htext, magnitudeOf_eq_self (hsame.trans hsign)] at hread

end FieldWord.Literal

namespace FieldWord

open Literal

/-! ## The three readers -/

/-- `read` gives the same for every spelling. -/
private theorem Word256.value_read_of_respelling {literal respelled : String}
    (hr : Respelling literal.toList respelled.toList) (h : WellSpelled (read literal).value) :
    (read respelled).value = (read literal).value := by
  rw [value_read] at h
  rw [value_read, value_read, hr.readWord_eq_unsigned h]

/-- `read` gives the same for every spelling. -/
private theorem Word248.value_read_of_respelling {literal respelled : String}
    (hr : Respelling literal.toList respelled.toList) (h : WellSpelled (read literal).value) :
    (read respelled).value = (read literal).value := by
  have hword : WellSpelled (readWord literal.toList 0) := by
    intro error herror
    rw [value_read, herror] at h
    exact h error rfl
  rw [value_read, value_read, hr.readWord_eq_unsigned hword]

/-- `read` takes the magnitude of a text, which stands behind the sign and is negated by it. -/
private theorem Felt.value_read_magnitude (literal : String) :
    (read literal).value =
      match readWord (magnitudeOf literal.toList) (signOf literal.toList).length with
      | .error error => .error error
      | .ok w =>
        if w.toNat < order then .ok (if signOf literal.toList = [] then ⟨w⟩ else -⟨w⟩)
        else .error .notInField := by
  rcases splitSign_cases literal with ⟨magnitude, htext, hsplit⟩ | ⟨hhead, -⟩
  · rw [value_read, hsplit, htext, String.toList_ofList]
    rfl
  · have hsign : signOf literal.toList = [] := if_neg hhead
    rw [value_read_unsigned hhead, magnitudeOf_eq_self hsign, hsign]
    rfl

/-- `read` gives the same for every spelling. -/
private theorem Felt.value_read_of_respelling {literal respelled : String}
    (hr : Respelling literal.toList respelled.toList) (h : WellSpelled (read literal).value) :
    (read respelled).value = (read literal).value := by
  have hword :
      WellSpelled (readWord (magnitudeOf literal.toList) (signOf literal.toList).length) := by
    intro error herror
    rw [value_read_magnitude, herror] at h
    exact h error rfl
  obtain ⟨hsign, hread⟩ := hr.readWord_eq hword
  rw [value_read_magnitude, value_read_magnitude, hsign, hread]

/-- `read` does not depend on the spelling. Whenever a text is read as a value of one of the types,
    or is rejected because its integer is too large for the type, every other spelling of it gives
    the same result: without its separators, with a further separator between two adjacent digits,
    with its letters in lower case, and with any number of zeros between the sign and the marker on
    one side and the digits on the other. -/
theorem Value.read_respelling {kind : Kind} {literal respelled : String}
    (hresult : WellSpelled (read kind literal).value)
    (h : Respelling literal.toList respelled.toList) :
    (read kind respelled).value = (read kind literal).value := by
  cases kind with
  | word256 =>
    rw [value_read_word256] at hresult
    rw [value_read_word256, value_read_word256, Word256.value_read_of_respelling h hresult.of_map]
  | word248 =>
    rw [value_read_word248] at hresult
    rw [value_read_word248, value_read_word248, Word248.value_read_of_respelling h hresult.of_map]
  | felt =>
    rw [value_read_felt] at hresult
    rw [value_read_felt, value_read_felt, Felt.value_read_of_respelling h hresult.of_map]

/-- A field literal in its other spellings, and a text that is too large for a word before the fault
    in it: without the separators that fault is gone, and the text is still too large. -/
theorem Value.read_respelling_overflow :
    ((read .felt "-0XF_f0").value = .ok (felt (-⟨.ofNat 0xff0⟩)) ∧
      ∀ respelled ∈ ["-0XFf0", "-0XF_f_0", "-0xf_f0", "-0X000F_f0"],
        (read .felt respelled).value = (read .felt "-0XF_f0").value) ∧
    (read .word256 (.ofList (['0', 'X'] ++ (List.replicate 65 'F' ++ ['_', '_'])))).value =
      .error .overflow ∧
      (read .word256 (.ofList (['0', 'X'] ++ List.replicate 65 'F'))).value = .error .overflow := by
  have hread : (read .felt "-0XF_f0").value = .ok (felt (-⟨.ofNat 0xff0⟩)) := by decide +kernel
  have hspelled : WellSpelled (read .felt "-0XF_f0").value := by
    intro error herror
    rw [hread] at herror
    cases herror
  -- Of the long text only the 65 digits follow the grammar, and they are too large.
  have hsettles : Settles .hexadecimal (List.replicate 65 'F' ++ ['_', '_']) (16 ^ 65 - 1) := by
    have hdigits : Digits .hexadecimal (List.replicate 65 'F') := by
      refine digits_of_forall (by decide) ?_
      intro c hc
      rw [List.eq_of_mem_replicate hc]
      decide
    exact ⟨List.replicate 65 'F', ['_', '_'], rfl, hdigits, by decide +kernel, .inr (by decide)⟩
  have hlarge :
      (read .word256 (.ofList (['0', 'X'] ++ (List.replicate 65 'F' ++ ['_', '_'])))).value =
        .error .overflow := by
    rw [value_read_word256, Word256.value_read, String.toList_ofList,
      readWord_of_settles hsettles (by decide), if_neg (by decide)]
    rfl
  refine ⟨⟨hread, ?_⟩, hlarge, ?_⟩
  · have hdigits : digitsOf "-0XF_f0".toList = ['F', '_'] ++ 'f' :: '0' :: [] := by decide
    simp only [List.forall_mem_cons, List.not_mem_nil, false_imp_iff, implies_true, and_true]
    exact ⟨read_respelling hspelled .unseparated,
      read_respelling hspelled (.separated hdigits (by decide) (by decide)),
      read_respelling hspelled .lowered, read_respelling hspelled (.zeros 3)⟩
  · -- Without the separators there is nothing behind the digits.
    rw [← hlarge]
    apply read_respelling
    · intro error herror
      rw [hlarge] at herror
      cases herror
      decide
    · rw [String.toList_ofList, String.toList_ofList]
      exact .unseparated

end FieldWord

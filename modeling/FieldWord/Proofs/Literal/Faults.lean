import FieldWord.Value
import FieldWord.Proofs.Bounded
import FieldWord.Proofs.Literal.Grammar

/-!
# Faults of literals

Which of the faults of a text is reported, and where. Positions are those of the characters behind
the marker. A position is at fault if its character has no place there, or if its digit takes the
integer to `2 ^ 256`; the leftmost one decides, whatever follows it. A separator at the very end is
only noticed when nothing else is at fault.

The run lemma `readDigits_run` says where the reader stands behind a part of the text without a
fault; the verdicts then follow from one more step.

## Key results

- `readDigits_step`, `readDigits_run`: the reader passes over positions without a fault
- `readWord_eq_iff_verdict`: the result for every text and offset
- `readWord_eq_finish`: the state in which the loop ends, and the result it gives
- `readWord_invalidDigit_stands`: a reported character stands at the reported index
-/

namespace FieldWord.Literal

/-- The number of bytes of a text in UTF-8. -/
def byteSize (cs : List Char) : Nat := (String.ofList cs).utf8ByteSize

@[simp] theorem byteSize_nil : byteSize [] = 0 := rfl

private theorem byteSize_append (as bs : List Char) :
    byteSize (as ++ bs) = byteSize as + byteSize bs := by
  rw [byteSize, String.ofList_append, String.utf8ByteSize_append, byteSize, byteSize]

private theorem byteSize_singleton (c : Char) : byteSize [c] = c.utf8Size := by
  rw [byteSize, ← String.utf8ByteSize_singleton]
  rfl

/-! ## Positions at fault -/

/-- A character that has no place among the digits: neither a digit nor a separator, or a separator
    that is the first character or follows another one. -/
def Bad (radix : Radix) (body : List Char) (i : Nat) : Prop :=
  ∃ c, body[i]? = some c ∧
    (c ≠ '_' ∧ ¬ radix.IsDigit c ∨ c = '_' ∧ (i = 0 ∨ body[i - 1]? = some '_'))

/-- A digit with which the digits up to it denote an integer that no word holds. -/
def Overflowing (radix : Radix) (body : List Char) (i : Nat) : Prop :=
  ∃ c, body[i]? = some c ∧ radix.IsDigit c ∧ 2 ^ 256 ≤ radix.value (body.take (i + 1))

/-- None of the first `n` positions is at fault. -/
def FaultFree (radix : Radix) (body : List Char) (n : Nat) : Prop :=
  ∀ i < n, ¬ Bad radix body i ∧ ¬ Overflowing radix body i

/-! ## Verdicts -/

/-- The radix in which a text is read. -/
def radixOf (text : List Char) : Radix := if IsMarked text then .hexadecimal else .decimal

/-- The number of characters of the marker. -/
def markerLength (text : List Char) : Nat := if IsMarked text then 2 else 0

/-- What follows the marker. -/
def bodyOf (text : List Char) : List Char := text.drop (markerLength text)

/-- What is to be reported of a text that starts `offset` bytes into the whole. -/
inductive Verdict (text : List Char) (offset : Nat) : Except LiteralError Word256 → Prop where
  /-- There is nothing behind the marker. -/
  | empty (hbody : bodyOf text = []) : Verdict text offset (.error .empty)
  /-- The leftmost fault is a character that has no place there. -/
  | bad {i : Nat} {c : Char} (hleft : FaultFree (radixOf text) (bodyOf text) i)
      (hbad : Bad (radixOf text) (bodyOf text) i) (hc : (bodyOf text)[i]? = some c) :
      Verdict text offset
        (.error (.invalidDigit (offset + byteSize (text.take (markerLength text + i))) c))
  /-- The leftmost fault is a digit that takes the integer too far. -/
  | overflowing {i : Nat} (hleft : FaultFree (radixOf text) (bodyOf text) i)
      (hover : Overflowing (radixOf text) (bodyOf text) i) : Verdict text offset (.error .overflow)
  /-- Nothing is at fault but a separator at the end. -/
  | trailing (hfree : FaultFree (radixOf text) (bodyOf text) (bodyOf text).length)
      (hlast : (bodyOf text).getLast? = some '_') :
      Verdict text offset (.error (.invalidDigit (offset + byteSize text.dropLast) '_'))
  /-- Nothing is at fault at all. -/
  | accepted {w : Word256} (hfree : FaultFree (radixOf text) (bodyOf text) (bodyOf text).length)
      (hbody : bodyOf text ≠ []) (hlast : (bodyOf text).getLast? ≠ some '_')
      (hw : w.toNat = (radixOf text).value (bodyOf text)) : Verdict text offset (.ok w)

/-! ## The reader on a text without a fault -/

/-- What stands right before the next character, behind the characters `done`. -/
def standing (start : Nat) (done : List Char) : Before :=
  match done.getLast? with
  | none => .start
  | some c => if c = '_' then .separator (start + byteSize done.dropLast) else .digit

@[simp] theorem standing_nil (start : Nat) : standing start [] = .start := rfl

/-- `standing` depends on the last character only. -/
@[simp] theorem standing_append_singleton (start : Nat) (done : List Char) (c : Char) :
    standing start (done ++ [c]) =
      if c = '_' then .separator (start + byteSize done) else .digit := by
  simp [standing]

/-- `standing` finds a digit unless it is at the start or behind a separator. -/
private theorem standing_take_eq_digit_iff (start : Nat) {body : List Char} {i : Nat}
    (hi : i ≤ body.length) :
    standing start (body.take i) = .digit ↔ ¬ (i = 0 ∨ body[i - 1]? = some '_') := by
  cases i with
  | zero => simp
  | succ i =>
    have hget : body[i]? = some (body.get ⟨i, hi⟩) := List.getElem?_eq_getElem hi
    have htake : body.take (i + 1) = body.take i ++ [body.get ⟨i, hi⟩] :=
      (List.take_append_getElem hi).symm
    generalize body.get ⟨i, hi⟩ = c at hget htake
    rw [htake, standing_append_singleton, Nat.add_sub_cancel, hget]
    split <;> simp [*]

/-- `readDigits` steps over a position that is not at fault. -/
theorem readDigits_step {radix : Radix} {body : List Char} {i : Nat} (start : Nat)
    (hi : i < body.length) (hbad : ¬ Bad radix body i) (hover : ¬ Overflowing radix body i)
    {w : Word256} (hw : w.toNat = radix.value (body.take i)) :
    ∃ v : Word256, v.toNat = radix.value (body.take (i + 1)) ∧
      readDigits radix (standing start (body.take i)) w (start + byteSize (body.take i))
          (body.drop i) =
        readDigits radix (standing start (body.take (i + 1))) v
          (start + byteSize (body.take (i + 1)))
          (body.drop (i + 1)) := by
  have hget : body[i]? = some (body.get ⟨i, hi⟩) := List.getElem?_eq_getElem hi
  have hdrop : body.drop i = body.get ⟨i, hi⟩ :: body.drop (i + 1) := List.drop_eq_getElem_cons hi
  have htake : body.take (i + 1) = body.take i ++ [body.get ⟨i, hi⟩] :=
    (List.take_append_getElem hi).symm
  generalize body.get ⟨i, hi⟩ = c at hget hdrop htake
  rw [hdrop, htake, standing_append_singleton, byteSize_append, byteSize_singleton, ← Nat.add_assoc]
  by_cases hc : c = '_'
  · -- A separator leaves the integer alone, and is only in place behind a digit.
    subst hc
    refine ⟨w, by rw [Radix.value_append_other radix.place?_separator, hw], ?_⟩
    have hstanding := (standing_take_eq_digit_iff start (Nat.le_of_lt hi)).mpr fun h =>
      hbad ⟨'_', hget, .inr ⟨rfl, h⟩⟩
    rw [hstanding, readDigits_separator, if_pos rfl]
    rfl
  · -- Anything else is a digit, and one with which the integer still fits.
    have hdigit : radix.IsDigit c := by
      by_contra hother
      exact hbad ⟨c, hget, .inl ⟨hc, hother⟩⟩
    obtain ⟨d, hd⟩ := Radix.isDigit_iff_exists_place.mp hdigit
    have hvalue := Radix.value_append_digit hd (body.take i)
    have hfits : radix.value (body.take i) * radix.base.toNat + d < 2 ^ 256 := by
      by_contra hlarge
      refine hover ⟨c, hget, hdigit, ?_⟩
      rw [htake, hvalue]
      omega
    have hnext := Word256.toNat_ofNat_of_lt hfits
    refine ⟨_, hnext.trans hvalue.symm, ?_⟩
    rw [if_neg hc]
    exact readDigits_digit hd (by rw [hnext, hw]) _ _ _

/-- `readDigits` holds the integer of the digits behind positions that are not at fault. -/
theorem readDigits_run {radix : Radix} {body : List Char} (start : Nat) {i : Nat}
    (hi : i ≤ body.length) (hfree : FaultFree radix body i) :
    ∃ w : Word256, w.toNat = radix.value (body.take i) ∧
      readDigits radix .start .zero start body =
        readDigits radix (standing start (body.take i)) w (start + byteSize (body.take i))
          (body.drop i) := by
  induction i with
  | zero => exact ⟨.zero, Word256.toNat_zero, by simp⟩
  | succ i ih =>
    obtain ⟨w, hw, hrun⟩ := ih (by omega) fun j hj => hfree j (by omega)
    obtain ⟨hbad, hover⟩ := hfree i (by omega)
    obtain ⟨v, hv, hstep⟩ := readDigits_step start (by omega) hbad hover hw
    exact ⟨v, hv, hrun.trans hstep⟩

/-! ## The reader on any text -/

/-- `readDigits` reports the leftmost fault if it is a character that has no place there. -/
private theorem readDigits_of_bad {radix : Radix} {body : List Char} {i : Nat} {c : Char}
    (start : Nat) (hleft : FaultFree radix body i) (hbad : Bad radix body i)
    (hc : body[i]? = some c) :
    readDigits radix .start .zero start body =
      .error (.invalidDigit (start + byteSize (body.take i)) c) := by
  obtain ⟨hi, hget⟩ := List.getElem?_eq_some_iff.mp hc
  obtain ⟨w, -, hrun⟩ := readDigits_run start (Nat.le_of_lt hi) hleft
  obtain ⟨b, hb, hplace⟩ := hbad
  obtain rfl : b = c := Option.some.inj (hb.symm.trans hc)
  rw [hrun, List.drop_eq_getElem_cons hi, hget]
  rcases hplace with ⟨hne, hdigit⟩ | ⟨rfl, hprevious⟩
  · -- Neither a digit nor a separator.
    exact readDigits_other hne hdigit _ _ _ _
  · -- A separator that does not stand behind a digit.
    refine readDigits_misplaced ?_ _ _ _ _
    rw [ne_eq, standing_take_eq_digit_iff start (Nat.le_of_lt hi), not_not]
    exact hprevious

/-- `readDigits` reports overflow if the leftmost fault is a digit that takes the integer too far.
    -/
private theorem readDigits_of_overflowing {radix : Radix} {body : List Char} {i : Nat} (start : Nat)
    (hleft : FaultFree radix body i) (hover : Overflowing radix body i) :
    readDigits radix .start .zero start body = .error .overflow := by
  obtain ⟨c, hc, hdigit, hlarge⟩ := hover
  obtain ⟨hi, hget⟩ := List.getElem?_eq_some_iff.mp hc
  obtain ⟨w, hw, hrun⟩ := readDigits_run start (Nat.le_of_lt hi) hleft
  obtain ⟨d, hd⟩ := Radix.isDigit_iff_exists_place.mp hdigit
  rw [← List.take_append_getElem hi, hget, Radix.value_append_digit hd, ← hw] at hlarge
  rw [hrun, List.drop_eq_getElem_cons hi, hget]
  exact readDigits_overflow hd hlarge _ _ _

/-- `readDigits` comes to the end of a text without a fault, where only what stands last matters. -/
private theorem readDigits_of_faultFree {radix : Radix} {body : List Char} (start : Nat)
    (hfree : FaultFree radix body body.length) :
    ∃ w : Word256, w.toNat = radix.value body ∧
      readDigits radix .start .zero start body =
        readDigits radix (standing start body) w (start + byteSize body) [] := by
  simpa using readDigits_run start (Nat.le_refl _) hfree

/-! ## Whole literals -/

/-- `splitMarker` gives the radix and the body of a text. -/
theorem splitMarker_eq (text : List Char) : splitMarker text = (radixOf text, bodyOf text) := by
  unfold radixOf bodyOf markerLength
  by_cases hmarked : IsMarked text
  · rw [if_pos hmarked, if_pos hmarked]
    obtain ⟨marker, hmarker, body, rfl⟩ := hmarked
    -- Both markers have two characters.
    have hlength : marker.length = 2 := by
      revert marker
      decide
    rw [splitMarker_marked hmarker, ← hlength, List.drop_left]
  · rw [if_neg hmarked, if_neg hmarked, splitMarker_unmarked hmarked, List.drop_zero]

/-- `byteSize` of a marker is the number of its characters. -/
private theorem byteSize_take_markerLength (text : List Char) :
    byteSize (text.take (markerLength text)) = markerLength text := by
  unfold markerLength
  split
  · rename_i hmarked
    rcases isMarked_iff.mp hmarked with ⟨body, rfl⟩ | ⟨body, rfl⟩ <;> rfl
  · rw [List.take_zero, byteSize_nil]

/-- `byteSize` in front of a position of the body counts the marker, too. -/
private theorem byteSize_take_body (text : List Char) (i : Nat) :
    byteSize (text.take (markerLength text + i)) =
      markerLength text + byteSize ((bodyOf text).take i) := by
  rw [List.take_add, byteSize_append, byteSize_take_markerLength, bodyOf]

/-- `readWord` is `readDigits` on the body of a text. -/
theorem readWord_eq_readDigits (text : List Char) (offset : Nat) :
    readWord text offset =
      readDigits (radixOf text) .start .zero (offset + markerLength text) (bodyOf text) := by
  have hmarker : (radixOf text).marker.length = markerLength text := by
    unfold radixOf markerLength
    split <;> rfl
  rw [readWord_eq, splitMarker_eq]
  simp only [hmarker]

/-- Where the loop over a text ends without a fault, `readWord` gives what `Scan.finish` makes of
    its last state. Behind a character that is never the error of an empty text. -/
theorem readWord_eq_finish {text : List Char} {offset : Nat} {last : Scan}
    (h : Scan.start.loop (radixOf text) (offset + markerLength text) (bodyOf text) = .ok last) :
    readWord text offset = last.finish ∧ (bodyOf text ≠ [] → last.Reached) := by
  refine ⟨?_, fun hbody => Scan.reached_of_loop (fun hnil => absurd hnil hbody) h⟩
  have hloop := readDigits_eq_loop (radixOf text) .start (offset + markerLength text) (bodyOf text)
  rw [h] at hloop
  exact (readWord_eq_readDigits text offset).trans hloop

/-- `bodyOf` a text ends in a separator only if the text does. -/
private theorem dropLast_of_getLast?_body {text : List Char}
    (hlast : (bodyOf text).getLast? = some '_') :
    text = text.dropLast ++ ['_'] ∧
      byteSize text.dropLast = markerLength text + byteSize (bodyOf text).dropLast := by
  obtain ⟨init, hinit⟩ := List.getLast?_eq_some_iff.mp hlast
  have htext : text = (text.take (markerLength text) ++ init) ++ ['_'] := by
    rw [List.append_assoc, ← hinit, bodyOf, List.take_append_drop]
  have hdrop : text.dropLast = text.take (markerLength text) ++ init := by
    rw [htext, List.dropLast_concat, ← htext]
  rw [hdrop, hinit, List.dropLast_concat, byteSize_append, byteSize_take_markerLength]
  exact ⟨htext, rfl⟩

/-- `readWord` gives the result that `Verdict` names. -/
theorem readWord_eq_of_verdict {text : List Char} {offset : Nat}
    {result : Except LiteralError Word256} (h : Verdict text offset result) :
    readWord text offset = result := by
  rw [readWord_eq_readDigits]
  cases h with
  | empty hbody => rw [hbody, readDigits]
  | bad hleft hbad hc => rw [readDigits_of_bad _ hleft hbad hc, byteSize_take_body, Nat.add_assoc]
  | overflowing hleft hover => exact readDigits_of_overflowing _ hleft hover
  | trailing hfree hlast =>
    -- The separator at the end is reported at its own place.
    obtain ⟨w, -, hrun⟩ := readDigits_of_faultFree (offset + markerLength text) hfree
    rw [hrun, standing, hlast, (dropLast_of_getLast?_body hlast).2, Nat.add_assoc]
    rfl
  | accepted hfree hbody hlast hw =>
    obtain ⟨v, hv, hrun⟩ := readDigits_of_faultFree (offset + markerLength text) hfree
    -- What stands last is neither the start nor a separator.
    obtain ⟨c, hc⟩ := Option.ne_none_iff_exists'.mp (mt List.getLast?_eq_none_iff.mp hbody)
    have hne : c ≠ '_' := by
      rintro rfl
      exact hlast hc
    have hstanding : standing (offset + markerLength text) (bodyOf text) = .digit := by
      simp only [standing, hc, if_neg hne]
    rw [hrun, hstanding, readDigits, Except.ok.injEq, ← Word256.toNat_inj, hv, hw]

/-- `Verdict` names a result for every text. -/
theorem exists_verdict (text : List Char) (offset : Nat) :
    ∃ result, Verdict text offset result := by
  by_cases hbody : bodyOf text = []
  · exact ⟨_, .empty hbody⟩
  by_cases hfault : ∃ i, Bad (radixOf text) (bodyOf text) i ∨
      Overflowing (radixOf text) (bodyOf text) i
  · -- Of the positions at fault there is a leftmost one.
    classical
    have hleft : FaultFree (radixOf text) (bodyOf text) (Nat.find hfault) := fun i hi =>
      not_or.mp (Nat.find_min hfault hi)
    rcases Nat.find_spec hfault with hbad | hover
    · obtain ⟨c, hc, -⟩ := id hbad
      exact ⟨_, .bad hleft hbad hc⟩
    · exact ⟨_, .overflowing hleft hover⟩
  · -- Without a fault the last character decides.
    have hfree : FaultFree (radixOf text) (bodyOf text) (bodyOf text).length := fun i _ =>
      not_or.mp fun hi => hfault ⟨i, hi⟩
    by_cases hlast : (bodyOf text).getLast? = some '_'
    · exact ⟨_, .trailing hfree hlast⟩
    · obtain ⟨w, hw, -⟩ := readDigits_of_faultFree 0 hfree
      exact ⟨_, .accepted hfree hbody hlast hw⟩

/-- `readWord` gives the result that `Verdict` names, and `Verdict` names no other. -/
theorem readWord_eq_iff_verdict (text : List Char) (offset : Nat)
    (result : Except LiteralError Word256) :
    readWord text offset = result ↔ Verdict text offset result := by
  constructor
  · rintro rfl
    obtain ⟨result, hresult⟩ := exists_verdict text offset
    rwa [readWord_eq_of_verdict hresult]
  · exact readWord_eq_of_verdict

/-- `readWord` reports an empty text exactly if nothing follows the marker. -/
theorem readWord_eq_empty_iff {text : List Char} {offset : Nat} :
    readWord text offset = .error .empty ↔ bodyOf text = [] := by
  rw [readWord_eq_iff_verdict]
  constructor
  · intro h
    cases h with
    | empty hbody => exact hbody
  · exact .empty

/-! ## Reported characters -/

/-- The character stands `index` bytes into the text. -/
def StandsAt (literal : String) (found : Char) (index : Nat) : Prop :=
  ∃ before after : String, literal = before ++ String.singleton found ++ after ∧
    before.utf8ByteSize = index

/-- `readWord` reports a character that stands at the reported index. -/
theorem readWord_invalidDigit_stands {text : List Char} {offset index : Nat} {found : Char}
    (h : readWord text offset = .error (.invalidDigit index found)) :
    ∃ before after, text = before ++ found :: after ∧ index = offset + byteSize before := by
  rw [readWord_eq_iff_verdict] at h
  cases h with
  | bad hleft hbad hc =>
    rename_i i
    obtain ⟨hi, hget⟩ := List.getElem?_eq_some_iff.mp hc
    refine ⟨text.take (markerLength text + i), (bodyOf text).drop (i + 1), ?_, rfl⟩
    rw [← hget, ← List.drop_eq_getElem_cons hi, bodyOf, List.drop_drop, List.take_append_drop]
  | trailing hfree hlast => exact ⟨text.dropLast, [], (dropLast_of_getLast?_body hlast).1, rfl⟩

/-- `StandsAt` holds at the size of the characters in front. -/
private theorem standsAt_of_toList {literal : String} {found : Char} {before after : List Char}
    (h : literal.toList = before ++ found :: after) : StandsAt literal found (byteSize before) := by
  refine ⟨String.ofList before, String.ofList after, ?_, rfl⟩
  apply String.toList_inj.mp
  simp [h]

/-- `Word256.read` reports a character that stands at the reported index. -/
private theorem word256_read_stands {literal : String} {index : Nat} {found : Char}
    (h : (Word256.read literal).value = .error (.invalidDigit index found)) :
    StandsAt literal found index := by
  rw [Word256.value_read] at h
  obtain ⟨before, after, htext, rfl⟩ := readWord_invalidDigit_stands h
  rw [Nat.zero_add]
  exact standsAt_of_toList htext

/-- `Word248.read` reports a character that stands at the reported index. -/
private theorem word248_read_stands {literal : String} {index : Nat} {found : Char}
    (h : (Word248.read literal).value = .error (.invalidDigit index found)) :
    StandsAt literal found index := by
  rw [Word248.value_read] at h
  split at h
  · rename_i error herror
    obtain rfl : error = .invalidDigit index found := by simpa using h
    exact word256_read_stands (by rw [Word256.value_read, herror])
  · split at h <;> simp at h

/-- `Felt.read` reports a character that stands at the reported index, which counts the sign
    although that is not part of the magnitude. -/
private theorem felt_read_stands {literal : String} {index : Nat} {found : Char}
    (h : (Felt.read literal).value = .error (.invalidDigit index found)) :
    StandsAt literal found index := by
  rw [Felt.value_read] at h
  split at h
  · rename_i error herror
    obtain rfl : error = .invalidDigit index found := by simpa using h
    obtain ⟨before, after, htext, hindex⟩ := readWord_invalidDigit_stands herror
    rcases Felt.splitSign_cases literal with ⟨magnitude, hsign, hsplit⟩ | ⟨-, hsplit⟩
    all_goals
      rw [hsplit] at htext hindex
      subst hindex
    · -- The magnitude starts one byte into the literal.
      rw [String.toList_ofList] at htext
      rw [htext] at hsign
      have hsize : byteSize ('-' :: before) = 1 + byteSize before := by
        rw [← List.singleton_append, byteSize_append, byteSize_singleton]
        rfl
      have hstands :=
        standsAt_of_toList (show literal.toList = ('-' :: before) ++ found :: after from hsign)
      rwa [hsize] at hstands
    · -- Without a sign the magnitude is the literal.
      simpa using standsAt_of_toList htext
  · -- A word that was read is at most not below the prime, which has no index.
    split at h <;> simp at h

end FieldWord.Literal

namespace FieldWord.Word256

/-- What `readAt` reports of every text, wherever it stands: the verdict on its leftmost fault. The
    text is reported as empty only if nothing follows the marker: where the loop over any other text
    ends, it ends behind a digit or has a separator to report. Of all three types the reported
    character stands at the reported index of the text as it was given. -/
theorem readAt_eq_iff_verdict (literal : String) (offset : Nat) :
    (∀ result, (readAt literal offset).value = result ↔
      Literal.Verdict literal.toList offset result) ∧
    ((readAt literal offset).value = .error .empty ↔ Literal.bodyOf literal.toList = []) ∧
    (∀ last, Literal.Scan.start.loop (Literal.radixOf literal.toList)
        (offset + Literal.markerLength literal.toList) (Literal.bodyOf literal.toList) = .ok last →
      (readAt literal offset).value = last.finish ∧
      (Literal.bodyOf literal.toList ≠ [] → last.afterDigit = false → last.separator ≠ none)) ∧
    ∀ kind index found, (Value.read kind literal).value = .error (.invalidDigit index found) →
      Literal.StandsAt literal found index := by
  rw [value_readAt]
  refine ⟨Literal.readWord_eq_iff_verdict _ _, Literal.readWord_eq_empty_iff,
    fun last => Literal.readWord_eq_finish, ?_⟩
  intro kind index found h
  cases kind with
  | word256 => exact Literal.word256_read_stands (map_eq_error_iff.mp h)
  | word248 => exact Literal.word248_read_stands (map_eq_error_iff.mp h)
  | felt => exact Literal.felt_read_stands (map_eq_error_iff.mp h)

/-- The sign and the separator before the bad character count. Without that character the loop ends
    behind the separator, which is then reported. -/
theorem readAt_eq_iff_verdict_signed :
    ((Value.read .felt "-1_é_").value = .error (.invalidDigit 3 'é') ∧
      Literal.StandsAt "-1_é_" 'é' 3) ∧
    Literal.Scan.start.loop .decimal 1 ['1', '_'] = .ok ⟨one, false, some 2⟩ ∧
      (readAt "1_" 1).value = .error (.invalidDigit 2 '_') := by
  have h : (Value.read .felt "-1_é_").value = .error (.invalidDigit 3 'é') := by decide +kernel
  have hloop : Literal.Scan.start.loop .decimal 1 ['1', '_'] = .ok ⟨one, false, some 2⟩ := by
    decide +kernel
  exact ⟨⟨h, (readAt_eq_iff_verdict "-1_é_" 0).2.2.2 .felt 3 'é' h⟩, hloop,
    ((readAt_eq_iff_verdict "1_" 1).2.2.1 _ hloop).1⟩

end FieldWord.Word256

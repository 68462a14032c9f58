import FieldWord.Literal.Reader

/-!
# The loop of the reader

`Scan.loop` carries three things from character to character: the integer of the digits, whether
the last character was a digit, and where the last separator stands. Of the last two only what
stands right before the next character matters. `readDigits` is the loop and its end as one
recursion over that, and the form in which the proofs about literals take the reader.

## Key results

- `Scan.reached_of_step`, `Scan.reached_of_loop`: a character that was taken leaves a trace
- `readDigits_eq_loop`: `readDigits` is `Scan.loop` followed by `Scan.finish`
- `readWord_eq`: `readWord` in terms of `readDigits`
-/

namespace FieldWord.Literal

/-! ## What is known behind a character -/

namespace Scan

variable {radix : Radix} {s next last : Scan} {index : Nat} {c : Char} {cs : List Char}

/-- Behind a character: there is a digit, or else a separator to report. -/
def Reached (s : Scan) : Prop := s.afterDigit = false → s.separator ≠ none

/-- `step` leaves a digit or a separator behind, whatever stood there before. -/
theorem reached_of_step (h : s.step radix index c = .ok next) : next.Reached := by
  unfold step at h
  split at h
  · split at h
    · -- A separator is recorded with its index.
      obtain rfl := Except.ok.inj h
      intro _
      exact Option.some_ne_none index
    · simp at h
  · split at h
    · simp at h
    · split at h
      · simp at h
      · -- A digit is recorded as such.
        obtain rfl := Except.ok.inj h
        intro hdigit
        simp at hdigit

/-- `loop` keeps that there is a digit or a separator, and a single character is enough for it. -/
theorem reached_of_loop (hs : cs = [] → s.Reached) (h : s.loop radix index cs = .ok last) :
    last.Reached := by
  induction cs generalizing s index with
  | nil =>
    obtain rfl := Except.ok.inj h
    exact hs rfl
  | cons c cs ih =>
    obtain ⟨next, hstep, hloop⟩ : ∃ next, s.step radix index c = .ok next ∧
        next.loop radix (index + c.utf8Size) cs = .ok last := by
      rw [loop] at h
      cases hstep : s.step radix index c with
      | error error => simp [hstep, bind, Except.bind] at h
      | ok next => exact ⟨next, rfl, by simpa [hstep, bind, Except.bind] using h⟩
    -- Whether or not anything follows, the step has left its trace.
    exact ih (fun _ => reached_of_step hstep) hloop

end Scan

/-! ## The loop and its end as one recursion -/

/-- What stands right before the next character of the digits. -/
inductive Before where
  /-- Nothing: the digits are still to come. -/
  | start
  /-- A digit. -/
  | digit
  /-- A separator, at the given index. -/
  | separator (index : Nat)
deriving DecidableEq, Repr

/-- Reads the remaining characters, the first of which has the given index, behind digits of
    value `w`. -/
def readDigits (radix : Radix) :
    Before → (w : Word256) → (index : Nat) → List Char → Except LiteralError Word256
  | .start, _, _, [] => .error .empty
  | .digit, w, _, [] => .ok w
  | .separator index, _, _, [] => .error (.invalidDigit index '_')
  | before, w, index, c :: cs =>
    if c = '_' then
      if before = .digit then readDigits radix (.separator index) w (index + c.utf8Size) cs
      else .error (.invalidDigit index c)
    else match radix.digit? c with
      | none => .error (.invalidDigit index c)
      | some digit => match appendDigit? radix w digit with
        | none => .error .overflow
        | some w => readDigits radix .digit w (index + c.utf8Size) cs

/-- What stands before the next character, by the state of the loop: the last separator only
    matters if no digit came after it. -/
def Scan.before (s : Scan) : Before :=
  if s.afterDigit then .digit
  else match s.separator with
    | some index => .separator index
    | none => .start

/-- `Scan.before` finds a digit exactly behind a digit. -/
private theorem Scan.before_eq_digit_iff {s : Scan} : s.before = .digit ↔ s.afterDigit = true := by
  unfold before
  split
  · simp [*]
  · split <;> simp [*]

/-- `readDigits` ends as `Scan.finish` does. -/
private theorem readDigits_nil (radix : Radix) (s : Scan) (index : Nat) :
    readDigits radix s.before s.word index [] = s.finish := by
  unfold Scan.before Scan.finish
  split
  · rw [readDigits]
  · cases s.separator <;> rw [readDigits]

/-- `readDigits` takes a character as `Scan.step` does. -/
private theorem readDigits_cons (radix : Radix) (s : Scan) (index : Nat) (c : Char)
    (cs : List Char) :
    readDigits radix s.before s.word index (c :: cs) =
      s.step radix index c >>= fun next =>
        readDigits radix next.before next.word (index + c.utf8Size) cs := by
  rw [readDigits, Scan.step]
  simp only [Scan.before_eq_digit_iff]
  split
  · split <;> rfl
  · cases radix.digit? c with
    | none => rfl
    | some digit =>
      cases happend : appendDigit? radix s.word digit <;> simp only [happend] <;> rfl

/-- `readDigits` is the loop followed by its end, from every state. -/
theorem readDigits_eq_loop (radix : Radix) (s : Scan) (index : Nat) (cs : List Char) :
    readDigits radix s.before s.word index cs = s.loop radix index cs >>= Scan.finish := by
  induction cs generalizing s index with
  | nil => exact readDigits_nil radix s index
  | cons c cs ih =>
    rw [readDigits_cons, Scan.loop]
    cases s.step radix index c with
    | error error => rfl
    | ok next => exact ih next (index + c.utf8Size)

/-- `readWord` reads the digits behind the marker, from the start. That it looks for an empty text
    first makes no difference: `readDigits` reports the same. -/
theorem readWord_eq (literal : List Char) (offset : Nat) :
    readWord literal offset =
      readDigits (splitMarker literal).1 .start .zero
        (offset + (splitMarker literal).1.marker.length) (splitMarker literal).2 := by
  have hloop := readDigits_eq_loop (splitMarker literal).1 .start
    (offset + (splitMarker literal).1.marker.length) (splitMarker literal).2
  unfold readWord
  split
  rename_i radix digits hsplit
  rw [hsplit] at hloop ⊢
  -- The loop over no digits ends with the error that is given at once.
  cases digits with
  | nil => rfl
  | cons c cs => exact hloop.symm

end FieldWord.Literal

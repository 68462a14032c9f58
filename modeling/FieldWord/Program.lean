import FieldWord.Value

/-!
# Stack programs

A program is a list of steps over a stack of values. A step reports its result, or fails and leaves
the stack as it was; the program goes on either way. A step that finds too few values fails for that
reason before it looks at their types, and for their types before it does its work.
-/

namespace FieldWord.Program

/-- The arithmetic on two words that reports whether the exact result was cut. -/
inductive Wrapping where
  | add | sub | mul
deriving DecidableEq, Repr

/-- The result modulo 2^256, and whether it was cut. -/
def Wrapping.apply : Wrapping → Word256 → Word256 → Word256 × Bool
  | add => Word256.addCarry
  | sub => Word256.subBorrow
  | mul => Word256.mulOverflow

/-- The arithmetic on two words that gives no result where the exact one does not fit. -/
inductive Checked where
  | add | mul
deriving DecidableEq, Repr

/-- The exact result, if it fits. -/
def Checked.apply? : Checked → Word256 → Word256 → Option Word256
  | add => Word256.add?
  | mul => Word256.mul?

/-- A step of a program. -/
inductive Step where
  /-- Pushes a value. -/
  | push (value : Value)
  /-- Pushes the value of a type with the integer of a word. -/
  | build (kind : Kind) (w : Word256)
  /-- Pushes the value of a literal. -/
  | read (kind : Kind) (literal : String)
  /-- Replaces two words by the wrapped result, and reports whether it was cut. -/
  | wrapping (operation : Wrapping)
  /-- Replaces two words by the exact result. -/
  | checked (operation : Checked)
  /-- Replaces two words by their difference modulo 2^256. -/
  | minus
  /-- Replaces a field element by its negative. -/
  | negate
  /-- Replaces the top by its conversion to a type. -/
  | convert (kind : Kind)
  /-- Reports the top as a machine integer. -/
  | native (width : Width)
  /-- Reports the leading zero bits of the top. -/
  | leadingZeros
  /-- Reports whether the top is zero. -/
  | isZero
  /-- Reports the numeral of the top, with the marker of the radix. -/
  | write (radix : Radix)
  /-- Replaces the top by the value of the literal that is its numeral between two texts, and
      reports that literal. -/
  | reread (kind : Kind) (radix : Radix) (before after : String)
  /-- Reports how the second value compares to the top. -/
  | compare
  /-- Pushes a copy of the top. -/
  | dup
  /-- Removes the top. -/
  | drop
  /-- Exchanges the two values on top. -/
  | swap
  /-- Pushes a copy of the second value. -/
  | dupSecond
deriving DecidableEq, Repr

/-- Why a step fails. -/
inductive Failure where
  /-- There are too few values. -/
  | stack
  /-- The values are of the wrong types. -/
  | kind
  /-- The integer does not fit the type. -/
  | outOfRange
  /-- The exact result does not fit. -/
  | absent
  /-- The literal is rejected. -/
  | literal (error : LiteralError)
deriving DecidableEq, Repr

/-- What a step reports. -/
inductive Result where
  | nothing
  | flag (b : Bool)
  | count (n : Nat)
  | integer (n : Nat)
  | text (s : String)
  | comparison (c : Comparison)
deriving DecidableEq, Repr

/-- The stack, top first. -/
abbrev Stack := List Value

/-- Carries out a step. Gives what it reports and the stack after it. -/
def Step.run : Step → Stack → Traced (Except Failure (Result × Stack))
  | push value, stack => pure (.ok (.nothing, value :: stack))
  | build kind w, stack => do
    match ← Value.ofWord kind w with
    | some value => pure (.ok (.nothing, value :: stack))
    | none => pure (.error .outOfRange)
  | read kind literal, stack => do
    match ← Value.read kind literal with
    | .ok value => pure (.ok (.nothing, value :: stack))
    | .error error => pure (.error (.literal error))
  | wrapping operation, b :: a :: stack =>
    match a, b with
    | .word256 v, .word256 w =>
      let (result, cut) := operation.apply v w
      pure (.ok (.flag cut, .word256 result :: stack))
    | _, _ => pure (.error .kind)
  | checked operation, b :: a :: stack =>
    match a, b with
    | .word256 v, .word256 w =>
      match operation.apply? v w with
      | some result => pure (.ok (.nothing, .word256 result :: stack))
      | none => pure (.error .absent)
    | _, _ => pure (.error .kind)
  | minus, b :: a :: stack =>
    match a, b with
    | .word256 v, .word256 w => pure (.ok (.nothing, .word256 (v - w) :: stack))
    | _, _ => pure (.error .kind)
  | negate, .felt x :: stack => pure (.ok (.nothing, .felt (-x) :: stack))
  | negate, _ :: _ => pure (.error .kind)
  | convert kind, value :: stack => do
    match ← value.convert kind with
    | some value => pure (.ok (.nothing, value :: stack))
    | none => pure (.error .outOfRange)
  | native _, .felt _ :: _ => pure (.error .kind)
  | native width, value :: stack =>
    match value.word.toNative? width with
    | some n => pure (.ok (.integer n.toNat, value :: stack))
    | none => pure (.error .outOfRange)
  | leadingZeros, .word256 w :: stack => pure (.ok (.count w.leadingZeros, .word256 w :: stack))
  | leadingZeros, .word248 u :: stack => pure (.ok (.count u.leadingZeros, .word248 u :: stack))
  | leadingZeros, .felt _ :: _ => pure (.error .kind)
  | isZero, .word256 w :: stack => pure (.ok (.flag w.isZero, .word256 w :: stack))
  | isZero, .felt x :: stack => pure (.ok (.flag x.isZero, .felt x :: stack))
  | isZero, .word248 _ :: _ => pure (.error .kind)
  | write radix, value :: stack => pure (.ok (.text (value.marked radix), value :: stack))
  | reread kind radix before after, value :: stack => do
    let literal := before ++ value.marked radix ++ after
    match ← Value.read kind literal with
    | .ok value => pure (.ok (.text literal, value :: stack))
    | .error error => pure (.error (.literal error))
  | compare, b :: a :: stack =>
    match a.comparison? b with
    | some comparison => pure (.ok (.comparison comparison, b :: a :: stack))
    | none => pure (.error .kind)
  | dup, value :: stack => pure (.ok (.nothing, value :: value :: stack))
  | drop, _ :: stack => pure (.ok (.nothing, stack))
  | swap, b :: a :: stack => pure (.ok (.nothing, a :: b :: stack))
  | dupSecond, b :: a :: stack => pure (.ok (.nothing, a :: b :: a :: stack))
  | _, _ => pure (.error .stack)

/-- A step's report or failure, and the stack after it. -/
structure Outcome where
  /-- What the step reported, or why it failed. -/
  result : Except Failure Result
  /-- The stack after the step. -/
  stack : Stack

/-- The outcome of a step. -/
def Step.outcome (step : Step) (stack : Stack) : Traced Outcome := do
  match ← step.run stack with
  | .ok (result, stack) => pure ⟨.ok result, stack⟩
  | .error failure => pure ⟨.error failure, stack⟩

/-- The outcomes of the steps, carried out one after the other from the given stack. -/
def run : List Step → Stack → Traced (List Outcome)
  | [], _ => pure []
  | step :: steps, stack => do
    let outcome ← step.outcome stack
    let outcomes ← run steps outcome.stack
    pure (outcome :: outcomes)

end FieldWord.Program

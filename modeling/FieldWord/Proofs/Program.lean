import FieldWord.Proofs.Events
import FieldWord.Proofs.History

/-!
# Runs of stack programs

Two things hold along every run of a program. The values on the stack have all been made by calls of
the library, so that a history has them all and they keep to the bounds of their types. And the
events are those of the calls that the steps stand for: a program leaves behind what `Call.runAll`
leaves behind of its calls, in their order.

Both are proved for one step, by the branches of `Step.run`, and carried over to `run` by induction
on the steps. A step that fails leaves the stack as it was.

## Key results

- `Step.recorded_of_run`, `recorded_run`: the values on the stack occur in a history
- `valid_run`: they keep to the bounds of their types
- `Step.outcome_of_error`, `length_run`: a step that fails leaves the stack as it was, and the
  program goes on
- `Step.events_run`, `events_run`: the events of a step and of a run are those of its calls
- `log_run`: what a run leaves behind
-/

namespace FieldWord.Program

/-! ## The stack -/

/-- All values of a stack occur in one history. -/
def Recorded (stack : Stack) : Prop := ∃ made, History made ∧ stack ⊆ made

/-- A step pushes no value but one that can be made at any time, such as a constant. -/
def Step.Grounded : Step → Prop
  | push value => ∀ made, Makes made value
  | _ => True

private theorem recorded_nil : Recorded [] := ⟨[], .start, List.Subset.refl []⟩

/-- `Recorded` values are valid. -/
theorem Recorded.valid {stack : Stack} (h : Recorded stack) : ∀ v ∈ stack, v.Valid := by
  obtain ⟨made, hmade, hsub⟩ := h
  exact fun v hv => hmade.valid v (hsub hv)

/-- `Recorded` is kept by fewer values. -/
private theorem Recorded.subset {stack after : Stack} (h : Recorded stack)
    (hafter : after ⊆ stack) :
    Recorded after := by
  obtain ⟨made, hmade, hsub⟩ := h
  exact ⟨made, hmade, List.Subset.trans hafter hsub⟩

/-- A value that is made of values on the stack is the next one in their history. On the stack it
    takes the place of the first `count` of them. -/
private theorem Recorded.replace {stack : Stack} {v : Value} (h : Recorded stack) (count : Nat)
    (hv : ∀ made, stack ⊆ made → Makes made v) : Recorded (v :: stack.drop count) := by
  obtain ⟨made, hmade, hsub⟩ := h
  refine ⟨v :: made, .call hmade (hv made hsub), ?_⟩
  exact List.cons_subset_cons v (List.Subset.trans (List.drop_subset count stack) hsub)

/-- `Value.ofWord` converts the word of a value. -/
private theorem convert_word256 (kind : Kind) (w : Word256) :
    (Value.word256 w).convert kind = Value.ofWord kind w := by
  cases kind <;> rfl

/-- `Value.ofWord` makes its value in two calls, of which the first makes the word. -/
private theorem Recorded.ofWord {stack : Stack} {kind : Kind} {w : Word256} {v : Value}
    (h : Recorded stack) (hv : (Value.ofWord kind w).value = some v) :
    Recorded (v :: stack) := by
  have hword : Recorded (.word256 w :: stack) := h.replace 0 fun _ _ => .word256OfBytes w.bytes
  rw [← convert_word256] at hv
  exact hword.replace 1 fun _ hsub => .convert (hsub List.mem_cons_self) hv

/-- `Step.run` makes what it puts on the stack of what is there, or moves it. -/
theorem Step.recorded_of_run {step : Step} {stack : Stack} (hstep : step.Grounded)
    (hstack : Recorded stack) :
    ∀ result after, (step.run stack).value = .ok (result, after) → Recorded after := by
  -- The branches are in the order of the definition. Those that fail have no stack to give.
  fun_cases Step.run step stack with
  | case5 | case7 | case8 | case10 | case12 | case14 | case16 | case19 | case22 | case26 | case31 =>
    rintro _ _ ⟨⟩
  -- A step that only reports something leaves the stack alone.
  | case15 | case17 | case18 | case20 | case21 | case23 | case25 =>
    rintro _ _ ⟨⟩
    exact hstack
  -- A step that copies, removes or exchanges values only has those that were there.
  | case27 | case28 | case29 | case30 =>
    rintro _ _ ⟨⟩
    exact hstack.subset (by simp)
  -- These make a value of nothing, of a literal or of a word.
  | case1 value stack =>
    rintro _ _ ⟨⟩
    exact hstack.replace 0 fun made _ => hstep made
  | case2 kind w stack =>
    intro _ _ h
    rw [Traced.value_bind] at h
    split at h <;> cases h
    exact hstack.ofWord ‹_›
  | case3 kind literal stack =>
    intro _ _ h
    rw [Traced.value_bind] at h
    split at h <;> cases h
    exact hstack.replace 0 fun _ _ => .read ‹_›
  -- The others replace the values that they take by the one that they make of them.
  | case4 operation stack v w result cut happly =>
    rintro _ _ ⟨⟩
    refine hstack.replace 2 fun made hsub => ?_
    simp only [List.cons_subset] at hsub
    have hmakes := Makes.wrapping operation hsub.2.1 hsub.1
    rwa [happly] at hmakes
  | case6 operation stack v w result happly =>
    rintro _ _ ⟨⟩
    refine hstack.replace 2 fun made hsub => ?_
    simp only [List.cons_subset] at hsub
    exact .checked hsub.2.1 hsub.1 happly
  | case9 stack v w =>
    rintro _ _ ⟨⟩
    refine hstack.replace 2 fun made hsub => ?_
    simp only [List.cons_subset] at hsub
    exact .minus hsub.2.1 hsub.1
  | case11 x stack =>
    rintro _ _ ⟨⟩
    exact hstack.replace 1 fun _ hsub => .negate (hsub List.mem_cons_self)
  | case13 kind value stack =>
    intro _ _ h
    rw [Traced.value_bind] at h
    split at h <;> cases h
    exact hstack.replace 1 fun _ hsub => .convert (hsub List.mem_cons_self) ‹_›
  | case24 kind radix before after value stack literal =>
    intro _ _ h
    rw [Traced.value_bind] at h
    split at h <;> cases h
    exact hstack.replace 1 fun _ _ => .read ‹_›

/-- `Step.outcome` of a step that fails has the stack as it was. -/
theorem Step.outcome_of_error {step : Step} {stack : Stack} {failure : Failure}
    (h : (step.run stack).value = .error failure) :
    (step.outcome stack).value = ⟨.error failure, stack⟩ := by
  simp only [outcome, Traced.value_bind, h]
  rfl

/-- `Step.outcome` of a step that succeeds has the stack that the step gives. -/
private theorem Step.outcome_of_ok {step : Step} {stack after : Stack} {result : Result}
    (h : (step.run stack).value = .ok (result, after)) :
    (step.outcome stack).value = ⟨.ok result, after⟩ := by
  simp only [outcome, Traced.value_bind, h]
  rfl

/-- `Step.outcome` keeps the values of the stack in a history, whether the step fails or not. -/
theorem Step.recorded_outcome {step : Step} {stack : Stack} (hstep : step.Grounded)
    (hstack : Recorded stack) : Recorded (step.outcome stack).value.stack := by
  cases hrun : (step.run stack).value with
  | error failure =>
    rw [outcome_of_error hrun]
    exact hstack
  | ok report =>
    rw [outcome_of_ok hrun]
    exact recorded_of_run hstep hstack _ _ hrun

/-- `run` keeps the values of the stack in a history, behind every step. -/
theorem recorded_run {steps : List Step} {stack : Stack} (hsteps : ∀ step ∈ steps, step.Grounded)
    (hstack : Recorded stack) : ∀ outcome ∈ (run steps stack).value, Recorded outcome.stack := by
  induction steps generalizing stack with
  | nil => simp [run]
  | cons step steps ih =>
    obtain ⟨hstep, hsteps⟩ := List.forall_mem_cons.mp hsteps
    -- The next step starts from the stack that this one leaves.
    have hnext := Step.recorded_outcome hstep hstack
    exact List.forall_mem_cons.mpr ⟨hnext, ih hsteps hnext⟩

/-- Along every `run` from the empty stack, the values on the stack keep to the bounds of their
    types. -/
theorem valid_run {steps : List Step} (hsteps : ∀ step ∈ steps, step.Grounded) :
    ∀ outcome ∈ (run steps []).value, ∀ v ∈ outcome.stack, v.Valid :=
  fun outcome houtcome => (recorded_run hsteps recorded_nil outcome houtcome).valid

/-- `run` has an outcome for every step, also behind those that fail. -/
theorem length_run (steps : List Step) (stack : Stack) :
    (run steps stack).value.length = steps.length := by
  induction steps generalizing stack with
  | nil => rfl
  | cons step steps ih => exact congrArg (· + 1) (ih (step.outcome stack).value.stack)

/-! ## The events -/

/-- The call that a step makes and that may leave an event behind. -/
def Step.call? : Step → Stack → Option Call
  | build .word248 w, _ => some (.narrowWord w)
  | build .felt w, _ => some (.canonical w)
  | read kind literal, _ => some (.read kind literal)
  | convert .word248, value :: _ => some (.narrowValue value)
  | convert .felt, .word256 w :: _ => some (.canonical w)
  | reread kind radix before after, value :: _ =>
    some (.read kind (before ++ value.marked radix ++ after))
  | _, _ => none

/-- The calls of a run, in their order. -/
def calls : List Step → Stack → List Call
  | [], _ => []
  | step :: steps, stack =>
    (step.call? stack).toList ++ calls steps (step.outcome stack).value.stack

/-- `Step.run` leaves the events of its call behind, and no others. -/
theorem Step.events_run (step : Step) (stack : Stack) :
    (step.run stack).events = (step.call? stack).toList.flatMap fun call => call.run.events := by
  fun_cases Step.run step stack with
  -- What a step does with the result of its call leaves no further event.
  | case2 kind w stack =>
    cases kind with
    | word256 => rfl
    | word248 => cases hv : (Word248.ofWord w).value <;> simp [call?, Call.run, Value.ofWord, hv]
    | felt => cases hv : Felt.ofWord? w <;> simp [call?, Call.run, Value.ofWord, hv]
  | case3 kind literal stack =>
    cases hv : (Value.read kind literal).value <;> simp [call?, Call.run, hv]
  | case13 kind value stack =>
    cases kind with
    | word256 => rfl
    | word248 => cases hv : (value.convert .word248).value <;> simp [call?, Call.run, hv]
    | felt =>
      cases value with
      | word256 w => cases hv : Felt.ofWord? w <;> simp [call?, Call.run, Value.convert, hv]
      | word248 | felt => rfl
  | case24 kind radix before after value stack literal =>
    cases hv : (Value.read kind literal).value <;> simp [call?, Call.run, literal, hv]
  -- The others make no such call, or find too few values for it.
  | case31 =>
    unfold call?
    split <;> first | grind | rfl
  | _ => rfl

/-- `Step.run` fails exactly if its call fails, and for the same reason. -/
theorem Step.error_run_iff {step : Step} {stack : Stack} {call : Call}
    (hcall : step.call? stack = some call) (failure : Failure) :
    (step.run stack).value = .error failure ↔ call.run.value = .error failure := by
  -- A step does nothing with the result of its call that could fail.
  unfold call? at hcall
  split at hcall <;> cases hcall
  · rename_i w
    cases hv : (Word248.ofWord w).value <;> simp [run, Call.run, Call.fitted, Value.ofWord, hv]
  · rename_i w
    cases hv : Felt.ofWord? w <;> simp [run, Call.run, Call.fitted, Value.ofWord, hv]
  · rename_i kind literal
    cases hv : (Value.read kind literal).value <;> simp [run, Call.run, Except.mapError, hv]
  · rename_i value stack
    cases hv : (value.convert .word248).value <;> simp [run, Call.run, Call.fitted, hv]
  · rename_i w stack
    cases hv : Felt.ofWord? w <;> simp [run, Call.run, Call.fitted, Value.convert, hv]
  · rename_i kind radix before after value stack
    cases hv : (Value.read kind (before ++ value.marked radix ++ after)).value <;>
      simp [run, Call.run, Except.mapError, hv]

/-- `run` leaves the events of its calls behind, in their order. -/
theorem events_run (steps : List Step) (stack : Stack) :
    (run steps stack).events = (Call.runAll (calls steps stack)).events := by
  induction steps generalizing stack with
  | nil => rfl
  | cons step steps ih =>
    have houtcome : (step.outcome stack).events = (step.run stack).events := by
      unfold Step.outcome
      rw [Traced.events_bind]
      split <;> exact List.append_nil _
    -- The rest of the run starts from the stack that the step leaves.
    rw [calls, Call.events_runAll, List.flatMap_append, ← Step.events_run, ← Call.events_runAll,
      ← ih, ← houtcome]
    simp [run]

/-- `run` leaves behind the log of its calls. -/
theorem log_run (steps : List Step) (stack : Stack) :
    Log (calls steps stack) (Call.runAll (calls steps stack)).value
      ((run steps stack).events.map Event.entry) := by
  rw [events_run]
  exact Call.log_runAll _

end FieldWord.Program

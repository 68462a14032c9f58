import FieldWord.Program
import FieldWord.Proofs.Literal.Faults
import FieldWord.Proofs.Negation
import FieldWord.Proofs.RoundTrip

/-!
# Events of runs

Which events are left behind by calls that read literals and narrow integers. The input of a call
decides everything: whether it succeeds and with which value, why it fails, and which event it
leaves behind. A call that fails leaves one event, a call that succeeds none, and the construction
of a field element from a word never leaves any.

`Logged` says this of one call, by its input alone. `Logged.run_eq` computes the call from the
reason that `Logged` gives, and `exists_logged` finds a reason for every call; so `Logged` is the
graph of `Call.run`, and `Log` that of `Call.runAll`.

## Key results

- `Value.read_eq_of_magnitude`: what is read and traced, by the word behind the sign
- `Logged.run_eq`, `exists_logged`: the outcome and the events of one call
- `Log.runAll_eq`, `log_runAll`: those of all calls
- `Call.log_iff_runAll`: the outcomes and events of every run
-/

namespace FieldWord

/-! ## Entries -/

/-- What an event says: its message and its particulars. -/
structure Entry where
  message : String
  fields : List (String × String)
deriving DecidableEq, Repr

/-- What is written of an event. -/
def Event.entry (event : Event) : Entry := ⟨event.message, event.fields⟩

namespace Entry

/-- The hexadecimal numeral of an integer, with its marker. -/
def hexText (n : Nat) : String := String.ofList ('0' :: 'x' :: Nat.toDigits 16 n)

/-- The entry of an integer that is too large for a bounded word. -/
def tooWide (n : Nat) : Entry where
  message := "value does not fit in u248"
  fields := [("value", hexText n), ("bound", hexText (2 ^ 248))]

/-- The entry of a text that is no literal of a word. -/
def rejected (literal : String) (offset : Nat) (error : LiteralError) : Entry where
  message := "rejected integer literal"
  fields := [("literal", literal), ("offset", Nat.repr offset), ("error", error.message)]

/-- The entry of a literal that reaches the order of the field. -/
def notBelowPrime (literal : String) : Entry where
  message := "literal is not below the field prime"
  fields := [("literal", literal), ("bound", hexText (2 ^ 251 + 17 * 2 ^ 192 + 1))]

end Entry

/-- `Word256.marked` writes the hexadecimal numeral of the integer. -/
private theorem Word256.marked_hexadecimal (w : Word256) :
    w.marked .hexadecimal = Entry.hexText w.toNat := by
  apply String.toList_inj.mp
  rw [marked, toList_format_unpadded, Entry.hexText, String.toList_ofList]
  rfl

/-- `Event.tooWide` is written with both integers. -/
private theorem Event.entry_tooWide (w : Word256) :
    (Event.tooWide w Word248.limit).entry = .tooWide w.toNat := by
  simp only [entry, message, fields, Word256.marked_hexadecimal, Word248.toNat_limit, Entry.tooWide]

/-- `Event.notBelowPrime` is written with the order of the field. -/
private theorem Event.entry_notBelowPrime (literal : String) :
    (Event.notBelowPrime literal Felt.prime).entry = .notBelowPrime literal := by
  simp only [entry, message, fields, Word256.marked_hexadecimal, Felt.toNat_prime, Felt.order,
    Entry.notBelowPrime]

/-! ## Calls -/

/-- A call that may fail. -/
inductive Call where
  /-- Reads the literal of a value. -/
  | read (kind : Kind) (literal : String)
  /-- Narrows a word. -/
  | narrowWord (w : Word256)
  /-- Narrows a field element, by the function of the bounded words. -/
  | narrowFelt (x : Felt)
  /-- Narrows a field element, by the function of the elements. -/
  | feltToWord248 (x : Felt)
  /-- Narrows a value of any type, by the conversion of values. -/
  | narrowValue (v : Value)
  /-- Builds a field element from a word. -/
  | canonical (w : Word256)
deriving DecidableEq, Repr

namespace Call

/-- What a call gives: a value, or the reason why there is none. -/
abbrev Outcome := Except Program.Failure Value

/-- A value that is missing does not fit. -/
def fitted : Option Value → Outcome
  | some v => .ok v
  | none => .error .outOfRange

/-- Carries out a call. -/
def run : Call → Traced Outcome
  | read kind literal => return (← Value.read kind literal).mapError .literal
  | narrowWord w => return fitted ((← Word248.ofWord w).map .word248)
  | narrowFelt x => return fitted ((← Word248.ofFelt x).map .word248)
  | feltToWord248 x => return fitted ((← x.toWord248).map .word248)
  | narrowValue v => return fitted (← v.convert .word248)
  | canonical w => pure (fitted ((Felt.ofWord? w).map .felt))

/-- Carries out calls one after the other. -/
def runAll : List Call → Traced (List Outcome)
  | [] => pure []
  | call :: calls => do
    let outcome ← call.run
    let outcomes ← runAll calls
    pure (outcome :: outcomes)

/-- The integer that a call narrows. A bounded word is not narrowed. -/
def narrowed? : Call → Option Nat
  | narrowWord w | narrowValue (.word256 w) => some w.toNat
  | narrowFelt x | feltToWord248 x | narrowValue (.felt x) => some x.word.toNat
  | narrowValue (.word248 _) | read .. | canonical _ => none

end Call

/-! ## Outcomes and entries by the input -/

/-- A text without the sign that its type allows: `offset` signs, and the literal of a word behind
    them. -/
structure Magnitude (kind : Kind) (text literal : String) (offset : Nat) : Prop where
  offset_eq : offset = if kind = .felt ∧ text.toList.head? = some '-' then 1 else 0
  text_eq : text.toList = List.replicate offset '-' ++ literal.toList

/-- The least integer that a type does not hold. -/
def Kind.bound : Kind → Nat
  | word256 => 2 ^ 256
  | word248 => 2 ^ 248
  | felt => 2 ^ 251 + 17 * 2 ^ 192 + 1

/-- The value that a call gives for its input. -/
inductive Gives : Call → Value → Prop where
  /-- Behind the sign there is the literal of an integer that the type holds. A sign negates it. -/
  | read {kind : Kind} {text literal : String} {offset n : Nat} {v : Value}
      (hmagnitude : Magnitude kind text literal offset)
      (hliteral : Literal.Denotes literal.toList n) (hfits : n < kind.bound) (hkind : v.kind = kind)
      (hv : v.word.toNat = if offset = 0 then n else (Felt.order - n) % Felt.order) :
      Gives (.read kind text) v
  /-- A bounded word holds the integer that is narrowed. -/
  | narrowed {call : Call} {n : Nat} {v : Value} (hcall : call.narrowed? = some n)
      (hfits : n < 2 ^ 248) (hkind : v.kind = .word248) (hv : v.word.toNat = n) : Gives call v
  /-- A bounded word is kept. -/
  | kept {u : Word248} : Gives (.narrowValue (.word248 u)) (.word248 u)
  /-- The word is below the order of the field. -/
  | canonical {w : Word256} {v : Value} (hfits : w.toNat < Felt.order) (hkind : v.kind = .felt)
      (hv : v.word.toNat = w.toNat) : Gives (.canonical w) v

/-- The failure of a call for its input, and the entry that belongs to it. -/
inductive Report : Call → Program.Failure → Entry → Prop where
  /-- There is no literal of a word behind the sign. The entry repeats the error that is returned.
      -/
  | rejected {kind : Kind} {text literal : String} {offset : Nat} {error : LiteralError}
      (hmagnitude : Magnitude kind text literal offset)
      (herror : Literal.Verdict literal.toList offset (.error error)) :
      Report (.read kind text) (.literal error) (.rejected literal offset error)
  /-- There is one, but no bounded word is that large. It is narrowing that reports it. -/
  | tooWideLiteral {text : String} {n : Nat} (hliteral : Literal.Denotes text.toList n)
      (hlarge : 2 ^ 248 ≤ n) (hword : n < 2 ^ 256) :
      Report (.read .word248 text) (.literal .overflow) (.tooWide n)
  /-- There is one, but no field element is that large. The entry has the text with its sign. -/
  | notBelowPrime {text literal : String} {offset n : Nat}
      (hmagnitude : Magnitude .felt text literal offset)
      (hliteral : Literal.Denotes literal.toList n) (hlarge : Felt.order ≤ n)
      (hword : n < 2 ^ 256) :
      Report (.read .felt text) (.literal .notInField) (.notBelowPrime text)
  /-- An integer is too large to be narrowed. -/
  | tooWide {call : Call} {n : Nat} (hcall : call.narrowed? = some n) (hlarge : 2 ^ 248 ≤ n) :
      Report call .outOfRange (.tooWide n)

/-- The outcome of one call and the entries that it leaves behind, by its input. -/
inductive Logged : Call → Call.Outcome → List Entry → Prop where
  | success {call : Call} {v : Value} (h : Gives call v) : Logged call (.ok v) []
  | failure {call : Call} {failure : Program.Failure} {entry : Entry}
      (h : Report call failure entry) : Logged call (.error failure) [entry]
  /-- A word from the order of the field on is no residue, and that is not traced. -/
  | silent {w : Word256} (hlarge : Felt.order ≤ w.toNat) :
      Logged (.canonical w) (.error .outOfRange) []

/-- The outcomes of calls and the entries that they leave behind, in their order. -/
inductive Log : List Call → List Call.Outcome → List Entry → Prop where
  | nil : Log [] [] []
  | cons {call : Call} {outcome : Call.Outcome} {entries later : List Entry} {calls : List Call}
      {outcomes : List Call.Outcome} (hcall : Logged call outcome entries)
      (hcalls : Log calls outcomes later) :
      Log (call :: calls) (outcome :: outcomes) (entries ++ later)

/-! ## Signs -/

/-- `Magnitude` of a type without signs is the whole text. -/
private theorem magnitude_unsigned {kind : Kind} (hkind : kind ≠ .felt) (text : String) :
    Magnitude kind text text 0 where
  offset_eq := by simp [hkind]
  text_eq := by simp

/-- `Felt.splitSign` splits off the sign that the type allows. -/
private theorem magnitude_splitSign (text : String) :
    Magnitude .felt text (Felt.splitSign text).2 (if (Felt.splitSign text).1 then 1 else 0) := by
  rcases Felt.splitSign_cases text with ⟨magnitude, htext, hsplit⟩ | ⟨hsign, hsplit⟩
  · exact ⟨by simp [hsplit, htext], by simp [hsplit, htext]⟩
  · exact ⟨by simp [hsplit, hsign], by simp [hsplit]⟩

/-- `Magnitude` splits every text for every type. -/
private theorem exists_magnitude (kind : Kind) (text : String) :
    ∃ literal offset, Magnitude kind text literal offset := by
  cases kind with
  | word256 | word248 => exact ⟨text, 0, magnitude_unsigned (by decide) text⟩
  | felt => exact ⟨_, _, magnitude_splitSign text⟩

/-- `Magnitude` splits a text in one way only. -/
private theorem Magnitude.unique {kind : Kind} {text literal literal' : String}
    {offset offset' : Nat} (h : Magnitude kind text literal offset)
    (h' : Magnitude kind text literal' offset') : literal = literal' ∧ offset = offset' := by
  have hoffset : offset = offset' := h.offset_eq.trans h'.offset_eq.symm
  subst hoffset
  have htext := h.text_eq.symm.trans h'.text_eq
  exact ⟨String.toList_inj.mp (List.append_cancel_left htext), rfl⟩

/-! ## Functions that raise events -/

/-- `bind` on a result with its events at hand. -/
private theorem Traced.mk_bind {α β : Type} (a : α) (events : List Event) (f : α → Traced β) :
    (Traced.mk a events >>= f) = ⟨(f a).value, events ++ (f a).events⟩ := rfl

/-- `Word256.readAt` leaves an event exactly if it fails. -/
private theorem Word256.readAt_eq (literal : String) (offset : Nat) :
    readAt literal offset =
      match Literal.readWord literal.toList offset with
      | .ok w => ⟨.ok w, []⟩
      | .error error => ⟨.error error, [.rejectedLiteral literal offset error]⟩ := by
  unfold readAt
  cases Literal.readWord literal.toList offset <;> rfl

/-- `Word248.ofWord` leaves an event exactly if it fails, and it fails from the bound on. -/
private theorem Word248.ofWord_eq (w : Word256) :
    ofWord w =
      if w.toNat < 2 ^ 248 then ⟨some ⟨w⟩, []⟩ else ⟨none, [.tooWide w limit]⟩ := by
  unfold ofWord
  simp only [Word256.lt_iff_toNat_lt, toNat_limit]
  split <;> rfl

/-- What the reader of a type makes of the word behind the sign. -/
def Kind.accept (kind : Kind) (text : String) (offset : Nat) (w : Word256) :
    Traced (Except LiteralError Value) :=
  match kind with
  | word256 => ⟨.ok (.word256 w), []⟩
  | word248 =>
    if w.toNat < 2 ^ 248 then ⟨.ok (.word248 ⟨w⟩), []⟩
    else ⟨.error .overflow, [.tooWide w Word248.limit]⟩
  | felt =>
    if w.toNat < Felt.order then ⟨.ok (.felt (if offset = 0 then ⟨w⟩ else -⟨w⟩)), []⟩
    else ⟨.error .notInField, [.notBelowPrime text Felt.prime]⟩

/-- `Value.read` reads the word behind the sign. It reports what is wrong there, and otherwise goes
    on by `Kind.accept`; so it never leaves more than one event. -/
theorem Value.read_eq_of_magnitude {kind : Kind} {text literal : String} {offset : Nat}
    (h : Magnitude kind text literal offset) :
    read kind text =
      match Literal.readWord literal.toList offset with
      | .error error => ⟨.error error, [.rejectedLiteral literal offset error]⟩
      | .ok w => kind.accept text offset w := by
  cases kind with
  | word256 =>
    obtain ⟨rfl, rfl⟩ := h.unique (magnitude_unsigned (by decide) text)
    simp only [read, Word256.read, Word256.readAt_eq]
    cases Literal.readWord literal.toList 0 <;> rfl
  | word248 =>
    obtain ⟨rfl, rfl⟩ := h.unique (magnitude_unsigned (by decide) text)
    simp only [read, Word248.read, Word256.read, Word256.readAt_eq]
    cases Literal.readWord literal.toList 0 with
    | error error => rfl
    | ok w =>
      -- The word is compared with the bound, and the event has the word.
      simp only [Traced.mk_bind, Word248.ofWord_eq, Kind.accept]
      split <;> rfl
  | felt =>
    obtain ⟨rfl, rfl⟩ := h.unique (magnitude_splitSign text)
    simp only [read, Felt.read, Word256.readAt_eq]
    cases Literal.readWord (Felt.splitSign text).2.toList _ with
    | error error => rfl
    | ok w =>
      -- The sign is applied to what is below the prime, and the event has the text with the sign.
      simp only [Traced.mk_bind, Felt.ofWord?_eq, Kind.accept]
      by_cases hfits : w.toNat < Felt.order
      · cases hsign : (Felt.splitSign text).1 <;> simp only [if_pos hfits] <;> rfl
      · simp only [if_neg hfits]
        rfl

/-! ## One call -/

/-- `Value.read` leaves the word of a literal, if there is one, to `Kind.accept`. -/
private theorem Value.exists_read_eq_accept {kind : Kind} {text literal : String} {offset n : Nat}
    (hmagnitude : Magnitude kind text literal offset) (hliteral : Literal.Denotes literal.toList n)
    (hword : n < 2 ^ 256) :
    ∃ w : Word256, w.toNat = n ∧ read kind text = kind.accept text offset w := by
  have hn := Word256.toNat_ofNat_of_lt hword
  have hread : Literal.readWord literal.toList offset = .ok (.ofNat n) := by
    rw [Literal.readWord_eq_ok_iff, hn]
    exact hliteral
  exact ⟨.ofNat n, hn, by rw [read_eq_of_magnitude hmagnitude, hread]⟩

/-- `Value.kind` and the integer tell values apart. -/
theorem Value.eq_of_toNat_eq {v w : Value} (hkind : v.kind = w.kind)
    (h : v.word.toNat = w.word.toNat) : v = w := by
  have hword := Word256.toNat_inj.mp h
  cases v <;> cases w <;> simp only [kind, reduceCtorEq] at hkind
  · exact congrArg word256 hword
  · exact congrArg (word248 ⟨·⟩) hword
  · exact congrArg (felt ⟨·⟩) hword

/-- `Kind.bound` of every type is one that words reach. -/
private theorem Kind.bound_le (kind : Kind) : kind.bound ≤ 2 ^ 256 := by
  cases kind <;> decide

/-- `Kind.bound` has a value of the type for every integer below it. -/
private theorem Kind.exists_value {kind : Kind} {n : Nat} (h : n < kind.bound) :
    ∃ v : Value, v.kind = kind ∧ v.word.toNat = n := by
  have hn := Word256.toNat_ofNat_of_lt (Nat.lt_of_lt_of_le h kind.bound_le)
  cases kind with
  | word256 => exact ⟨.word256 (.ofNat n), rfl, hn⟩
  | word248 => exact ⟨.word248 ⟨.ofNat n⟩, rfl, hn⟩
  | felt => exact ⟨.felt ⟨.ofNat n⟩, rfl, hn⟩

/-- `Kind.accept` gives the value of a word that fits, or the negative behind a sign. -/
private theorem Kind.accept_of_fits {kind : Kind} {text literal : String} {offset : Nat}
    {w : Word256} {v : Value} (hmagnitude : Magnitude kind text literal offset)
    (hfits : w.toNat < kind.bound) (hkind : v.kind = kind)
    (hv : v.word.toNat = if offset = 0 then w.toNat else (Felt.order - w.toNat) % Felt.order) :
    kind.accept text offset w = ⟨.ok v, []⟩ := by
  have hoffset := hmagnitude.offset_eq
  -- A sign has been split off only for field elements.
  cases kind with
  | word256 =>
    have hvalue : v = .word256 w :=
      Value.eq_of_toNat_eq hkind (by simpa [hoffset, Value.word] using hv)
    rw [hvalue]
    rfl
  | word248 =>
    have hvalue : v = .word248 ⟨w⟩ :=
      Value.eq_of_toNat_eq hkind (by simpa [hoffset, Value.word] using hv)
    rw [hvalue]
    exact if_pos hfits
  | felt =>
    have hvalue : v = .felt (if offset = 0 then ⟨w⟩ else -⟨w⟩) := by
      refine Value.eq_of_toNat_eq hkind (hv.trans ?_)
      split
      · rfl
      · exact (Felt.Residue.toNat_neg_eq_mod ⟨⟨w⟩, hfits⟩).symm
    rw [hvalue]
    exact if_pos hfits

/-- A call that narrows an integer does so by `Word248.ofWord`, however it comes by the word. -/
private theorem Call.run_of_narrowed? {call : Call} {n : Nat} (h : call.narrowed? = some n) :
    ∃ w : Word256, w.toNat = n ∧
      call.run = ⟨fitted ((Word248.ofWord w).value.map .word248), (Word248.ofWord w).events⟩ := by
  cases call with
  | read | canonical => simp [narrowed?] at h
  -- All of these pass the word on to `Word248.ofWord`.
  | narrowWord w => exact ⟨w, Option.some.inj h, by simp [run, bind, pure]⟩
  | narrowFelt x =>
    exact ⟨x.word, Option.some.inj h, by simp [run, bind, pure, Word248.ofFelt, Felt.toWord248]⟩
  | feltToWord248 x =>
    exact ⟨x.word, Option.some.inj h, by simp [run, bind, pure, Felt.toWord248]⟩
  | narrowValue v =>
    cases v with
    | word256 w => exact ⟨w, Option.some.inj h, by simp [run, bind, pure, Value.convert]⟩
    | word248 => simp [narrowed?] at h
    | felt x =>
      refine ⟨x.word, Option.some.inj h, ?_⟩
      simp [run, bind, pure, Value.convert, Word248.ofFelt, Felt.toWord248]

/-- `Call.run` gives what the input of a call asks for, and leaves nothing behind then. -/
private theorem Gives.run_eq {call : Call} {v : Value} (h : Gives call v) :
    call.run = ⟨.ok v, []⟩ := by
  cases h with
  | read hmagnitude hliteral hfits hkind hv =>
    -- The bound of every type is one that words reach, so the literal is read as a word.
    have hword := Nat.lt_of_lt_of_le hfits (Kind.bound_le _)
    obtain ⟨w, rfl, hread⟩ := Value.exists_read_eq_accept hmagnitude hliteral hword
    rw [Call.run, hread, Kind.accept_of_fits hmagnitude hfits hkind hv]
    rfl
  | narrowed hcall hfits hkind hv =>
    obtain ⟨w, rfl, hrun⟩ := Call.run_of_narrowed? hcall
    have hvalue : v = .word248 ⟨w⟩ := Value.eq_of_toNat_eq hkind hv
    rw [hrun, Word248.ofWord_eq, if_pos hfits, hvalue]
    rfl
  | kept => rfl
  | canonical hfits hkind hv =>
    rename_i w
    have hvalue : v = .felt ⟨w⟩ := Value.eq_of_toNat_eq hkind hv
    rw [Call.run, Felt.ofWord?_eq, if_pos hfits, hvalue]
    rfl

/-- `Call.run` fails as the input of a call makes it fail, and leaves the one entry behind that
    belongs to the failure. -/
private theorem Report.run_eq {call : Call} {failure : Program.Failure} {entry : Entry}
    (h : Report call failure entry) :
    ∃ event, event.entry = entry ∧ call.run = ⟨.error failure, [event]⟩ := by
  cases h with
  | rejected hmagnitude herror =>
    refine ⟨.rejectedLiteral _ _ _, rfl, ?_⟩
    rw [Call.run, Value.read_eq_of_magnitude hmagnitude, Literal.readWord_eq_of_verdict herror]
    rfl
  | tooWideLiteral hliteral hlarge hword =>
    rename_i text n
    -- A word holds the integer, but the type does not.
    have hmagnitude : Magnitude .word248 text text 0 := magnitude_unsigned (by decide) text
    obtain ⟨w, rfl, hread⟩ := Value.exists_read_eq_accept hmagnitude hliteral hword
    refine ⟨.tooWide w Word248.limit, Event.entry_tooWide w, ?_⟩
    rw [Call.run, hread, Kind.accept, if_neg (Nat.not_lt.mpr hlarge)]
    rfl
  | notBelowPrime hmagnitude hliteral hlarge hword =>
    obtain ⟨w, rfl, hread⟩ := Value.exists_read_eq_accept hmagnitude hliteral hword
    refine ⟨.notBelowPrime _ Felt.prime, Event.entry_notBelowPrime _, ?_⟩
    rw [Call.run, hread, Kind.accept, if_neg (Nat.not_lt.mpr hlarge)]
    rfl
  | tooWide hcall hlarge =>
    obtain ⟨w, rfl, hrun⟩ := Call.run_of_narrowed? hcall
    refine ⟨.tooWide w Word248.limit, Event.entry_tooWide w, ?_⟩
    rw [hrun, Word248.ofWord_eq, if_neg (Nat.not_lt.mpr hlarge)]
    rfl

/-- `Logged` is right about `Call.run`: its outcome and its entries are those of the call. -/
theorem Logged.run_eq {call : Call} {outcome : Call.Outcome} {entries : List Entry}
    (h : Logged call outcome entries) :
    outcome = call.run.value ∧ entries = call.run.events.map Event.entry := by
  cases h with
  | success hgives =>
    rw [hgives.run_eq]
    exact ⟨rfl, rfl⟩
  | failure hreport =>
    obtain ⟨event, rfl, hrun⟩ := hreport.run_eq
    rw [hrun]
    exact ⟨rfl, rfl⟩
  | silent hlarge =>
    rw [Call.run, Felt.ofWord?_eq, if_neg (Nat.not_lt.mpr hlarge)]
    exact ⟨rfl, rfl⟩

/-- `Logged` covers every text: it is read, or rejected for what is wrong behind the sign or for
    where the integer lies. -/
private theorem exists_logged_read (kind : Kind) (text : String) :
    ∃ outcome entries, Logged (.read kind text) outcome entries := by
  obtain ⟨literal, offset, hmagnitude⟩ := exists_magnitude kind text
  obtain ⟨result, hverdict⟩ := Literal.exists_verdict literal.toList offset
  cases result with
  | error error => exact ⟨_, _, .failure (.rejected hmagnitude hverdict)⟩
  | ok w =>
    have hliteral : Literal.Denotes literal.toList w.toNat :=
      Literal.readWord_eq_ok_iff.mp (Literal.readWord_eq_of_verdict hverdict)
    by_cases hfits : w.toNat < kind.bound
    · -- The negative is a residue too, so the type holds it.
      obtain ⟨v, hkind, hv⟩ : ∃ v : Value, v.kind = kind ∧
          v.word.toNat = if offset = 0 then w.toNat else (Felt.order - w.toNat) % Felt.order := by
        apply Kind.exists_value
        have hoffset := hmagnitude.offset_eq
        split
        · exact hfits
        · have hfelt : kind = .felt := by
            by_contra hkind
            simp_all
          rw [hfelt]
          exact Nat.mod_lt _ (by decide)
      exact ⟨_, _, .success (.read hmagnitude hliteral hfits hkind hv)⟩
    · -- Both smaller types have an event for what is too large.
      have hlarge := Nat.le_of_not_lt hfits
      cases kind with
      | word256 => exact absurd w.toNat_lt hfits
      | word248 =>
        obtain ⟨rfl, rfl⟩ := hmagnitude.unique (magnitude_unsigned (by decide) text)
        exact ⟨_, _, .failure (.tooWideLiteral hliteral hlarge w.toNat_lt)⟩
      | felt => exact ⟨_, _, .failure (.notBelowPrime hmagnitude hliteral hlarge w.toNat_lt)⟩

/-- `Logged` covers every call that narrows: its integer is below the bound or not. -/
private theorem exists_logged_narrowed {call : Call} {n : Nat} (hcall : call.narrowed? = some n) :
    ∃ outcome entries, Logged call outcome entries := by
  by_cases hfits : n < 2 ^ 248
  · obtain ⟨v, hkind, hv⟩ := Kind.exists_value (show n < Kind.word248.bound from hfits)
    exact ⟨_, _, .success (.narrowed hcall hfits hkind hv)⟩
  · exact ⟨_, _, .failure (.tooWide hcall (Nat.le_of_not_lt hfits))⟩

/-- `Logged` says something of every call. -/
theorem exists_logged (call : Call) : ∃ outcome entries, Logged call outcome entries := by
  cases call with
  | read kind text => exact exists_logged_read kind text
  | narrowWord w => exact exists_logged_narrowed rfl
  | narrowFelt x => exact exists_logged_narrowed rfl
  | feltToWord248 x => exact exists_logged_narrowed rfl
  | narrowValue v =>
    cases v with
    | word256 w => exact exists_logged_narrowed rfl
    | word248 u => exact ⟨_, _, .success .kept⟩
    | felt x => exact exists_logged_narrowed rfl
  | canonical w =>
    -- This call is silent where it fails.
    by_cases hfits : w.toNat < Felt.order
    · obtain ⟨v, hkind, hv⟩ := Kind.exists_value (show w.toNat < Kind.felt.bound from hfits)
      exact ⟨_, _, .success (.canonical hfits hkind hv)⟩
    · exact ⟨_, _, .silent (Nat.le_of_not_lt hfits)⟩

/-- `Call.run` is as `Logged` says. -/
theorem Call.logged (call : Call) :
    Logged call call.run.value (call.run.events.map Event.entry) := by
  obtain ⟨outcome, entries, h⟩ := exists_logged call
  obtain ⟨rfl, rfl⟩ := h.run_eq
  exact h

/-! ## All calls -/

namespace Call

/-- `runAll` gives the outcomes that the calls have by themselves. -/
theorem value_runAll (calls : List Call) :
    (runAll calls).value = calls.map fun call => call.run.value := by
  induction calls with
  | nil => rfl
  | cons call calls ih => simp [runAll, ih]

/-- `runAll` leaves the events of the calls behind, in their order. -/
theorem events_runAll (calls : List Call) :
    (runAll calls).events = calls.flatMap fun call => call.run.events := by
  induction calls with
  | nil => rfl
  | cons call calls ih => simp [runAll, ih]

/-- `runAll` is as `Log` says. -/
theorem log_runAll (calls : List Call) :
    Log calls (runAll calls).value ((runAll calls).events.map Event.entry) := by
  induction calls with
  | nil => exact .nil
  | cons call calls ih =>
    -- The events of the first call come before those of the others.
    have hevents : (runAll (call :: calls)).events = call.run.events ++ (runAll calls).events := by
      simp [runAll]
    rw [hevents, List.map_append]
    exact .cons call.logged ih

end Call

/-- `Log` is right about `runAll`: its outcomes and its entries are those of the run. -/
theorem Log.runAll_eq {calls : List Call} {outcomes : List Call.Outcome} {entries : List Entry}
    (h : Log calls outcomes entries) :
    outcomes = (Call.runAll calls).value ∧
      entries = (Call.runAll calls).events.map Event.entry := by
  induction h with
  | nil => exact ⟨rfl, rfl⟩
  | cons hcall _ ih =>
    obtain ⟨rfl, rfl⟩ := hcall.run_eq
    obtain ⟨rfl, rfl⟩ := ih
    simp [Call.runAll]

/-- The events of every run of `runAll`, by the inputs of the calls alone. The calls have the
    outcomes that they have by themselves. A literal of an integer below the bound of its type is
    read, and an integer below `2 ^ 248` is narrowed, without an event; every other call fails and
    leaves one entry, in the order of the calls: the error and the magnitude of a text that is no
    literal of a word, or the integer or the text that is too large for its type. Only the
    construction of a field element from a word leaves none, whether it succeeds or not. -/
theorem Call.log_iff_runAll (calls : List Call) :
    (runAll calls).value = calls.map (fun call => call.run.value) ∧
      ∀ outcomes entries, Log calls outcomes entries ↔
        outcomes = (runAll calls).value ∧ entries = (runAll calls).events.map Event.entry := by
  refine ⟨value_runAll calls, ?_⟩
  intro outcomes entries
  constructor
  · exact Log.runAll_eq
  · rintro ⟨rfl, rfl⟩
    exact log_runAll calls

/-- The sign is no part of the rejected literal, but its byte counts in the error. The word that is
    no residue leaves nothing behind, and the literal that is read neither. -/
example :
    (Call.runAll [.read .felt "-1x", .canonical Felt.prime, .read .word248 "7",
      .narrowWord Word248.limit]).events =
      [.rejectedLiteral "1x" 1 (.invalidDigit 2 'x'), .tooWide Word248.limit Word248.limit] := by
  decide +kernel

end FieldWord

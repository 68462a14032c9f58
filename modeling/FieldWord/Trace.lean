import FieldWord.Literal.Error
import FieldWord.Word256.Text

/-!
# Traces

Rejections leave an event behind. A computation that may reject something gives its result together
with the events, in the order in which they arose; the events never change the result.
-/

namespace FieldWord

/-- Something that was rejected. -/
inductive Event where
  /-- A word has more bits than a bounded word may have. -/
  | tooWide (value bound : Word256)
  /-- A text is not the literal of a word. The literal starts `offset` bytes into its text. -/
  | rejectedLiteral (literal : String) (offset : Nat) (error : LiteralError)
  /-- The literal of a word is not below the field prime. -/
  | notBelowPrime (literal : String) (bound : Word256)
deriving DecidableEq, Repr

namespace Event

/-- What happened. -/
def message : Event → String
  | tooWide .. => "value does not fit in u248"
  | rejectedLiteral .. => "rejected integer literal"
  | notBelowPrime .. => "literal is not below the field prime"

/-- The particulars, by name. -/
def fields : Event → List (String × String)
  | tooWide value bound =>
    [("value", value.marked .hexadecimal), ("bound", bound.marked .hexadecimal)]
  | rejectedLiteral literal offset error =>
    [("literal", literal), ("offset", Nat.repr offset), ("error", error.message)]
  | notBelowPrime literal bound => [("literal", literal), ("bound", bound.marked .hexadecimal)]

/-- The severity: events only trace what the library does. -/
def level : Event → String
  | _ => "TRACE"

end Event

/-- A result with the events that arose on the way to it, first event first. -/
structure Traced (α : Type) where
  /-- The result. -/
  value : α
  /-- The events. -/
  events : List Event
deriving DecidableEq, Repr

namespace Traced

variable {α β : Type}

/-- Records an event. -/
def emit (event : Event) : Traced Unit := ⟨(), [event]⟩

instance : Monad Traced where
  pure value := ⟨value, []⟩
  bind x f := ⟨(f x.value).value, x.events ++ (f x.value).events⟩

@[simp] theorem value_pure (a : α) : (pure a : Traced α).value = a := rfl

@[simp] theorem events_pure (a : α) : (pure a : Traced α).events = [] := rfl

/-- `bind` passes the result on without its events. -/
@[simp] theorem value_bind (x : Traced α) (f : α → Traced β) :
    (x >>= f).value = (f x.value).value := rfl

/-- `bind` puts the events of the first computation before those of the second. -/
@[simp] theorem events_bind (x : Traced α) (f : α → Traced β) :
    (x >>= f).events = x.events ++ (f x.value).events := rfl

end Traced

end FieldWord

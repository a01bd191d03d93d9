import DataSquare.Bytes
import DataSquare.Log.Level

/-!
# Events of a log

What a computation reports: a message with named values, from the part of the program that is its
target, perhaps within a span that covers a whole request. Events are derived from inputs and
results, so no computation depends on whether anybody listens.
-/
namespace DataSquare.Log

/-- A value that an event carries. -/
inductive Value where
  /-- A number. -/
  | number (value : Nat)
  /-- A text. -/
  | text (value : String)
deriving DecidableEq, Repr

/-- The text of a value. -/
def Value.display : Value → String
  | .number value => toString value
  | .text value => value

/-- A named value. -/
structure Field where
  /-- The name. -/
  name : String
  /-- The value. -/
  value : Value
deriving DecidableEq, Repr

namespace Field

/-- A named number. -/
def number (name : String) (value : Nat) : Field := ⟨name, .number value⟩

/-- A named text. -/
def text (name value : String) : Field := ⟨name, .text value⟩

end Field

/-- A request within which events occur. -/
structure Span where
  /-- The level at which the span itself is visible. -/
  level : Level
  /-- The part of the program that opens it. -/
  target : String
  /-- What it is called. -/
  name : String
  /-- What tells it from others of its name. -/
  fields : List Field
deriving DecidableEq, Repr

/-- Something that is reported. -/
structure Event where
  /-- How grave it is. -/
  level : Level
  /-- The part of the program that reports it. -/
  target : String
  /-- What happened. -/
  message : String
  /-- The values involved. -/
  fields : List Field
  /-- The span in which it occurs, if there is a visible one. -/
  span? : Option Span := none
deriving DecidableEq, Repr

/-- An event as it occurs within a span. -/
def Event.within (event : Event) (span : Span) : Event := { event with span? := some span }

/-- The target of a part of the program. -/
def target (part : String) : String := "square_backend::" ++ part

end DataSquare.Log

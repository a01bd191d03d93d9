import DataSquare.Text.Basic

/-!
# Levels of a log

An event is as grave as its level says. A threshold lets events through up to a level of detail,
or none at all. Levels are written as words in any case or by number, from 1 for errors to 5 for
traces. Main statement: the number of a level reads back as the level.
-/
namespace DataSquare.Log

/-- How grave an event is. -/
inductive Level where
  /-- Something is lost. -/
  | error
  /-- Something is not as it should be. -/
  | warn
  /-- Something happened that an operator follows. -/
  | info
  /-- A step on the way. -/
  | debug
  /-- The finest detail. -/
  | trace
deriving DecidableEq, Repr

namespace Level

/-- The number of a level, which grows with the detail. -/
def detail : Level → Nat
  | .error => 1
  | .warn => 2
  | .info => 3
  | .debug => 4
  | .trace => 5

/-- The word for a level. -/
def name : Level → String
  | .error => "ERROR"
  | .warn => "WARN"
  | .info => "INFO"
  | .debug => "DEBUG"
  | .trace => "TRACE"

/-- All levels from the gravest on. -/
def all : List Level := [.error, .warn, .info, .debug, .trace]

/-- The level with a number. -/
def ofDetail? (detail : Nat) : Option Level := all.find? fun level => level.detail = detail

/-- The level that a word means in any case. -/
def ofName? (word : String) : Option Level := all.find? fun level => level.name = word.toUpper

/-- The level that is written as a number or as a word. -/
def ofText? (text : String) : Option Level :=
  match Text.readDecimal text.toList with
  | .ok detail => ofDetail? detail
  | .error _ => ofName? text

/-- The number of a level reads back as the level. -/
theorem ofDetail?_detail (level : Level) : ofDetail? level.detail = some level := by
  cases level <;> decide

end Level

/-- The detail up to which events pass. -/
inductive Threshold where
  /-- No event passes. -/
  | off
  /-- Events up to a level pass. -/
  | upTo (level : Level)
deriving DecidableEq, Repr

namespace Threshold

/-- Whether events of a level pass. -/
def passes : Threshold → Level → Bool
  | .off, _ => false
  | .upTo most, level => decide (level.detail ≤ most.detail)

/-- The threshold that is written as a number or as a word. -/
def ofText? (text : String) : Option Threshold :=
  match Text.readDecimal text.toList with
  | .ok 0 => some .off
  | .ok detail => (Level.ofDetail? detail).map .upTo
  | .error _ => if text.toUpper = "OFF" then some .off else (Level.ofName? text).map .upTo

/-- Exactly the levels of no more detail than its own pass a threshold. -/
theorem passes_upTo_iff {most level : Level} :
    (upTo most).passes level = true ↔ level.detail ≤ most.detail := by
  simp [passes]

end Threshold

end DataSquare.Log

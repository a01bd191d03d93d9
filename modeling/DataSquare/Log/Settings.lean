import DataSquare.Log.Gate
import DataSquare.Log.Line
import DataSquare.Log.Record

/-!
# Settings of a log

Where a log goes, what it shows and how its events are written. Log files are begun anew every
hour, and the hour follows the name that an operator chooses.
-/
namespace DataSquare.Log

/-- How events are written. -/
inductive Rendering where
  /-- As records. -/
  | records
  /-- As lines. -/
  | lines
  /-- As lines for a terminal. -/
  | terminal
deriving DecidableEq, Repr

/-- An event as it is written. -/
def Rendering.write : Rendering → Event → String
  | .records => Event.record
  | .lines => Event.line .plain
  | .terminal => Event.line .terminal

/-- Where log files are written. -/
structure FileSettings where
  /-- The directory. -/
  directory : String
  /-- The start of the name of a file, if it is chosen. -/
  stem? : Option String
  /-- Whether events are written as records. -/
  records : Bool
deriving DecidableEq, Repr

namespace FileSettings

/-- The name of a file without the hour. -/
def stem (settings : FileSettings) : String := settings.stem?.getD "square.log"

/-- How events are written to the files. -/
def rendering (settings : FileSettings) : Rendering := if settings.records then .records else .lines

end FileSettings

/-- Where a log goes. -/
inductive Logger where
  /-- To files. -/
  | file (settings : FileSettings)
  /-- To standard output. -/
  | stdout
  /-- To standard error. -/
  | stderr
  /-- Nowhere. -/
  | nowhere
deriving DecidableEq, Repr

/-- What an operator configures of the log. -/
structure LogSettings where
  /-- Where it goes. -/
  logger : Logger
  /-- The table of thresholds by target, if there is one. -/
  filter? : Option FilterSettings
  /-- The finest level that is shown. -/
  level : Level
deriving DecidableEq, Repr

/-- Everything but the finest detail goes to standard output. -/
def LogSettings.default : LogSettings := ⟨.stdout, none, .debug⟩

end DataSquare.Log

import DataSquare.Log.Event

/-!
# Events as lines

An event is written as a line for a reader: its level, its span, its target, its message and its
values. On a terminal the parts are set apart by colour and weight.
-/
namespace DataSquare.Log

/-- How the parts of a line are set apart. -/
structure Style where
  /-- What surrounds a level. -/
  level : Level → String → String
  /-- What surrounds the name of a span and its braces. -/
  strong : String → String
  /-- What surrounds targets and punctuation. -/
  faint : String → String
  /-- What surrounds the name of a value. -/
  slanted : String → String

namespace Style

/-- Nothing is set apart. -/
def plain : Style := ⟨fun _ => id, id, id, id⟩

/-- A text between the escape sequence that switches a rendition on and the one that ends it. -/
def rendered (code : Nat) (text : String) : String := s!"\x1b[{code}m" ++ text ++ "\x1b[0m"

/-- The code of the colour of a level. -/
def colour : Level → Nat
  | .error => 31
  | .warn => 33
  | .info => 32
  | .debug => 34
  | .trace => 35

/-- Parts are set apart by escape sequences. -/
def terminal : Style :=
  ⟨fun level => rendered (colour level), rendered 1, rendered 2, rendered 3⟩

end Style

/-- The word for a level, right aligned in five columns. -/
def Level.column (level : Level) : String :=
  "".pushn ' ' (5 - level.name.length) ++ level.name

/-- A named value on a line. -/
def Field.line (style : Style) (field : Field) : String :=
  style.slanted field.name ++ style.faint "=" ++ field.value.display

/-- Named values on a line. -/
def Field.lines (style : Style) (fields : List Field) : String :=
  String.intercalate " " (fields.map (Field.line style))

/-- A span on a line. -/
def Span.line (style : Style) (span : Span) : String :=
  style.strong span.name ++ style.strong "\x7b" ++ Field.lines style span.fields ++
    style.strong "\x7d" ++ style.faint ":" ++ " "

/-- An event on a line. -/
def Event.line (style : Style) (event : Event) : String :=
  style.level event.level event.level.column ++ " " ++
    (event.span?.map (Span.line style)).getD "" ++
    style.faint event.target ++ style.faint ":" ++ " " ++ event.message ++
    String.join (event.fields.map fun field => " " ++ field.line style)

end DataSquare.Log

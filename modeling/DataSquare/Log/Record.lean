import DataSquare.Log.Event
import DataSquare.Text.Hex

/-!
# Events as records

An event is written as one JSON object on a line, with its level, its fields with the message
among them, its target, and its span if it has one.
-/
namespace DataSquare.Log

/-- What stands for a character in a JSON string. -/
def jsonChar (char : Char) : List Char :=
  if char = '"' then ['\\', '"']
  else if char = '\\' then ['\\', '\\']
  else if char = '\n' then ['\\', 'n']
  else if char = '\r' then ['\\', 'r']
  else if char = '\t' then ['\\', 't']
  else if char = '\x08' then ['\\', 'b']
  else if char = '\x0c' then ['\\', 'f']
  else if char.toNat < 0x20 then ['\\', 'u', '0', '0'] ++ Text.hexDigits [UInt8.ofNat char.toNat]
  else [char]

/-- A text as a JSON string. -/
def jsonText (text : String) : String :=
  String.ofList ('"' :: text.toList.flatMap jsonChar ++ ['"'])

/-- A JSON object of members that are already written. -/
def jsonObject (members : List (String × String)) : String :=
  "\x7b" ++ String.intercalate "," (members.map fun (name, value) =>
    jsonText name ++ ":" ++ value) ++ "\x7d"

/-- A value in JSON. -/
def Value.json : Value → String
  | .number value => toString value
  | .text value => jsonText value

/-- Named values as members of a JSON object. -/
def Field.members (fields : List Field) : List (String × String) :=
  fields.map fun field => (field.name, field.value.json)

/-- A span as a JSON object. -/
def Span.json (span : Span) : String :=
  jsonObject (Field.members span.fields ++ [("name", jsonText span.name)])

/-- The members of a record that tell the span of an event. -/
def Event.spanMembers (event : Event) : List (String × String) :=
  match event.span? with
  | none => []
  | some span => [("span", span.json), ("spans", "[" ++ span.json ++ "]")]

/-- An event as a record. -/
def Event.record (event : Event) : String :=
  jsonObject ([("level", jsonText event.level.name),
    ("fields", jsonObject (("message", jsonText event.message) :: Field.members event.fields)),
    ("target", jsonText event.target)] ++ event.spanMembers)

end DataSquare.Log

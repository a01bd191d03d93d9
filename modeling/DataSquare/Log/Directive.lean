import DataSquare.Log.Event
import DataSquare.Log.Pattern.Grammar
import DataSquare.Text.Cut

/-!
# Rules of a filter

A rule sets a threshold for the targets that start with a text, for what occurs within spans of a
name, or for what has a field, perhaps with a certain value. It is written as the start of the
targets, the span and its field between brackets, and the threshold after an equals sign. White
space around a rule does not count for where its parts end, but they are cut out of the text with
it. Main statement: a rule that names neither a span nor a field is about events as they are.
-/
namespace DataSquare.Log

/-- What is wrong with a rule. -/
inductive DirectiveFault where
  /-- It is not written as rules are. -/
  | malformed
  /-- A part ends inside of a character. -/
  | cutCharacter
deriving DecidableEq, Repr

/-- What a field is compared with. -/
inductive FieldValue where
  /-- A truth value. -/
  | truth (value : Bool)
  /-- A number of 64 bits. -/
  | number (value : Nat)
  /-- Any other number. -/
  | decimal (text : String)
  /-- A pattern, as it is written and as it is read. -/
  | pattern (text : String) (pattern : Pattern)
deriving DecidableEq, Repr

namespace FieldValue

/-- Whether a text is digits with at most one point among them, and at least one digit. -/
def isDigits (text : List Char) : Bool :=
  text.any Char.isDigit && text.all (fun char => char.isDigit || char = '.') &&
    text.count '.' ≤ 1

/-- A text without the sign in front of it. -/
def unsigned : List Char → List Char
  | '+' :: rest => rest
  | '-' :: rest => rest
  | text => text

/-- Whether a text writes a number, perhaps with a sign, a point and a power of ten. Infinity and
what is no number count as numbers. -/
def isDecimal (text : List Char) : Bool :=
  let text := (unsigned text).map Char.toLower
  let digits := text.takeWhile (· ≠ 'e')
  ["inf", "infinity", "nan"].any (fun word => word.toList = text) ||
    isDigits digits &&
      match text.drop digits.length with
      | [] => true
      | _ :: power =>
        let power := unsigned power
        !power.isEmpty && power.all Char.isDigit

/-- The value that a text writes. What is no truth value and no number is a pattern. -/
def ofText? (text : List Char) : Option FieldValue :=
  let whole := String.ofList text
  match whole, Text.readDecimal text with
  | "true", _ => some (.truth true)
  | "false", _ => some (.truth false)
  | _, .ok value => some (.number value)
  | _, .error _ =>
    if isDecimal text then some (.decimal whole)
    else (Pattern.ofText? whole).map (.pattern whole)

/-- Whether a value of a span is as it should be. -/
def isMetBy (value : Value) (expected : FieldValue) : Bool :=
  match expected, value with
  | .number expected, .number value => expected = value
  | .pattern _ expected, .text value => expected.fits value.toList
  | _, _ => false

end FieldValue

/-- A field that a rule asks for. -/
structure FieldTest where
  /-- The name of the field. -/
  name : String
  /-- The value that it should have, if that matters. -/
  value? : Option FieldValue
deriving DecidableEq, Repr

namespace FieldTest

/-- The field that a text between braces asks for. What is after a second equals sign is
ignored. -/
def ofText? (text : List Char) : Option FieldTest :=
  let name := text.takeWhile (· ≠ '=')
  match text.drop name.length with
  | [] => if name.isEmpty then none else some ⟨String.ofList name, none⟩
  | _ :: rest =>
    (FieldValue.ofText? (rest.takeWhile (· ≠ '='))).map fun value =>
      ⟨String.ofList name, some value⟩

/-- Whether a span has the field with its value. -/
def isMetBy (span : Span) (test : FieldTest) : Bool :=
  test.value?.all fun expected => span.fields.any fun field =>
    field.name = test.name && expected.isMetBy field.value

end FieldTest

/-- A rule of a filter. -/
structure Directive where
  /-- The text with which the target starts, if targets are distinguished. -/
  target? : Option String
  /-- The name of the span, if the rule is about what occurs within spans of a name. -/
  span? : Option String
  /-- The field that is asked for, if there is one. -/
  field? : Option FieldTest
  /-- What passes. -/
  threshold : Threshold
deriving DecidableEq, Repr

namespace Directive

/-- Whether a rule covers a target. -/
def covers (directive : Directive) (target : String) : Bool :=
  directive.target?.all fun start => start.toList.isPrefixOf target.toList

/-- How much of a target a rule names. -/
def weight (directive : Directive) : Nat :=
  (directive.target?.map fun start => start.utf8ByteSize + 1).getD 0

/-- Whether a rule names no more of a target than another one, and of the same target no more of a
field. Of fields the greater name is more. -/
def isNoMoreSpecific (directive other : Directive) : Bool :=
  directive.weight < other.weight || directive.weight = other.weight &&
    match directive.field?, other.field? with
    | none, _ => true
    | some _, none => false
    | some test, some other => test.name ≤ other.name

/-- Whether the field that a rule asks for is among some names. -/
def findsField (directive : Directive) (names : List String) : Bool :=
  directive.field?.all fun test => names.contains test.name

/-- Whether a rule is about spans and what occurs within them. -/
def isAboutSpans (directive : Directive) : Bool :=
  directive.span?.isSome || directive.field?.isSome

/-- Whether a rule is about events and spans as they are, whatever the values of spans. -/
def isAboutEvents (directive : Directive) : Bool :=
  directive.span?.isNone && directive.field?.all fun test => test.value?.isNone

/-- A rule that is not about spans is about events as they are. -/
theorem isAboutEvents_of_not_isAboutSpans {directive : Directive}
    (h : directive.isAboutSpans = false) : directive.isAboutEvents = true := by
  simp only [isAboutSpans, Bool.or_eq_false_iff, Option.isSome_eq_false_iff,
    Option.isNone_iff_eq_none] at h
  simp [isAboutEvents, h.1, h.2]

/-- Whether a target may start with a character. -/
def isTargetStart (char : Char) : Bool :=
  Text.isAlphanumeric char || char = '-' || char = ':' || char = '_'

/-- The part of a rule between two places. -/
def part (text : List Char) (start stop : Nat) : Except DirectiveFault (List Char) :=
  match Text.cut? text start stop with
  | some part => .ok part
  | none => .error .cutCharacter

/-- The threshold from a place on. No text means that everything passes. -/
def thresholdFrom (text : List Char) (start : Nat) : Except DirectiveFault Threshold :=
  match Text.cutFrom? text start with
  | none => .error .cutCharacter
  | some [] => .ok (.upTo .trace)
  | some text =>
    match Threshold.ofText? (String.ofList text) with
    | some threshold => .ok threshold
    | none => .error .malformed

/-- The threshold after the bracket that closes a span. Nothing means that everything passes. -/
def thresholdAfter (text : List Char) (start : Nat) :
    List Char → Except DirectiveFault Threshold
  | [] => .ok (.upTo .trace)
  | '=' :: _ => thresholdFrom text (start + 1)
  | _ => .error .malformed

/-- The rule after the brace that opens its field. -/
def ofFieldText (text : List Char) (target? span? : Option String) (start : Nat)
    (inner : List Char) : Except DirectiveFault Directive := do
  let written := inner.takeWhile (· ≠ '\x7d')
  let stop := start + Text.byteLength written
  match inner.drop written.length with
  | [] => throw .malformed
  | _ :: rest =>
    match FieldTest.ofText? (← part text start stop), rest with
    | some field, ']' :: rest =>
      return ⟨target?, span?, some field, ← thresholdAfter text (stop + 2) rest⟩
    | _, _ => throw .malformed

/-- The rule after the bracket that opens its span. -/
def ofSpanText (text : List Char) (target? : Option String) (start : Nat) (inner : List Char) :
    Except DirectiveFault Directive := do
  let written := inner.takeWhile fun char => char ≠ ']' && char ≠ '\x7b'
  let stop := start + Text.byteLength written
  match inner.drop written.length with
  | ']' :: rest =>
    let span := String.ofList (← part text start stop)
    return ⟨target?, some span, none, ← thresholdAfter text (stop + 1) rest⟩
  | _ :: rest =>
    let span := String.ofList (← part text start stop)
    ofFieldText text target? (if span.isEmpty then none else some span) (stop + 1) rest
  | [] => throw .malformed

/-- A rule without parts, which is a threshold for every target or the start of targets. -/
def ofWord (word : String) : Directive :=
  match Threshold.ofText? word with
  | some threshold => ⟨none, none, none, threshold⟩
  | none => ⟨some word, none, none, .upTo .trace⟩

/-- The rule that a text without commas writes. -/
def ofText (text : List Char) : Except DirectiveFault Directive := do
  let shape := Text.trimmed text
  match shape with
  | [] => throw .malformed
  | '[' :: inner => ofSpanText text none 1 inner
  | first :: _ =>
    if !isTargetStart first then throw .malformed
    let written := shape.takeWhile fun char => char ≠ '=' && char ≠ '['
    let stop := Text.byteLength written
    match shape.drop written.length with
    | [] => return ofWord (String.ofList text)
    | '=' :: _ =>
      let target := String.ofList (← part text 0 stop)
      return ⟨some target, none, none, ← thresholdFrom text (stop + 1)⟩
    | _ :: inner =>
      let target := String.ofList (← part text 0 stop)
      ofSpanText text (some target) (stop + 1) inner

end Directive

end DataSquare.Log

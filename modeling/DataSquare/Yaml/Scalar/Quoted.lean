import DataSquare.Text.Basic
import DataSquare.Yaml.Scalar.Gap

/-!
# Quoted scalars

Between single quotes only a quote is special, which is written twice. Between double quotes a
backslash gives the next character a meaning, names a character by its number, or joins two lines.
A mark that starts or ends a document does not occur inside. Main statement: two single quotes
stand for one.
-/
namespace DataSquare.Yaml

/-- The character that a letter after a backslash stands for. -/
def escaped? : Char → Option Char
  | '0' => some '\x00'
  | 'a' => some '\x07'
  | 'b' => some '\x08'
  | 't' => some '\t'
  | '\t' => some '\t'
  | 'n' => some '\n'
  | 'v' => some '\x0b'
  | 'f' => some '\x0c'
  | 'r' => some '\r'
  | 'e' => some '\x1b'
  | ' ' => some ' '
  | '"' => some '"'
  | '/' => some '/'
  | '\\' => some '\\'
  | 'N' => some '\u0085'
  | '_' => some '\u00a0'
  | 'L' => some '\u2028'
  | 'P' => some '\u2029'
  | _ => none

/-- The number of digits after a letter that names a character by its number. -/
def escapeWidth? : Char → Option Nat
  | 'x' => some 2
  | 'u' => some 4
  | 'U' => some 8
  | _ => none

/-- What a quoted scalar goes on with. -/
inductive QuotedUnit where
  /-- A character, written with as many characters. -/
  | letter (char : Char) (width : Nat)
  /-- The end of a line after a backslash. -/
  | joint
  /-- The closing quote. -/
  | close
  /-- A gap between words. -/
  | gap
deriving DecidableEq, Repr

namespace QuotedUnit

/-- The character whose number is written in base sixteen. -/
def numbered? (width : Nat) (text : List Char) : Option QuotedUnit := do
  let digits := text.take width
  let value ← Text.digits? 16 0 digits
  if digits.length = width && value.isValidChar then
    some (.letter (Char.ofNat value) (width + 2))
  else none

/-- What a text between single quotes goes on with. -/
def single? : List Char → Option QuotedUnit
  | [] => none
  | '\'' :: '\'' :: _ => some (.letter '\'' 2)
  | '\'' :: _ => some .close
  | char :: _ => if isBlank char || isBreak char then some .gap else some (.letter char 1)

/-- What a text between double quotes goes on with. -/
def double? : List Char → Option QuotedUnit
  | [] => none
  | '"' :: _ => some .close
  | '\\' :: [] => none
  | '\\' :: char :: rest =>
    if isBreak char then some .joint
    else
      match escapeWidth? char with
      | some width => numbered? width rest
      | none => (escaped? char).map fun char => .letter char 2
  | char :: _ => if isBlank char || isBreak char then some .gap else some (.letter char 1)

end QuotedUnit

/-- A scalar that is read, with the place after it. The characters read are held last first, and
the number of steps is bounded. -/
def quoted? (unit? : List Char → Option QuotedUnit) (fuel : Nat) (read : List Char)
    (place : Place) : Option (List Char × Place) :=
  match fuel with
  | 0 => none
  | fuel + 1 =>
    if place.isAtAnyMark then none
    else
      match unit? place.rest with
      | none => none
      | some (.letter char width) => quoted? unit? fuel (char :: read) (place.pass width)
      | some .close => some (read.reverse, place.pass 1)
      | some .gap => (Gap.at? 0 place).bind fun gap =>
        quoted? unit? fuel (gap.text.reverse ++ read) gap.after
      | some .joint => (Gap.at? 0 (place.pass 1).passBreak).bind fun gap =>
        quoted? unit? fuel (gap.breaks.reverse ++ read) gap.after

/-- Two single quotes stand for one. -/
theorem QuotedUnit.single?_quote (rest : List Char) :
    single? ('\'' :: '\'' :: rest) = some (.letter '\'' 2) := rfl

end DataSquare.Yaml

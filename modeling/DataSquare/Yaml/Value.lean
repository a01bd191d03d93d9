import DataSquare.Text.Basic
import DataSquare.Yaml.Token

/-!
# YAML values

What a YAML document holds, and what its scalars mean where a certain kind of value is expected.
Numbers and truth values are scalars without quotes, or blocks of lines with the tag of their kind;
any scalar is a text. Main statement: what writes a truth value is never taken for missing.
-/
namespace DataSquare

open Yaml (Style)

/-- A YAML value. -/
inductive Yaml where
  /-- A text, perhaps tagged. -/
  | scalar (tag? : Option String) (style : Style) (text : String)
  /-- A list of values, perhaps tagged. -/
  | sequence (tag? : Option String) (items : List Yaml)
  /-- A list of keys with values, perhaps tagged. -/
  | mapping (tag? : Option String) (entries : List (Yaml × Yaml))
  /-- The value that a number stands for in its document. -/
  | shared (number : Nat)

namespace Yaml

/-- The value of nothing at all. -/
def empty : Yaml := .scalar none .plain ""

/-- The tag of a value. -/
def tag? : Yaml → Option String
  | .scalar tag _ _ => tag
  | .sequence tag _ => tag
  | .mapping tag _ => tag
  | .shared _ => none

/-- Whether there is nothing at all, whatever the tag. -/
def isEmpty : Yaml → Bool
  | .scalar _ .plain "" => true
  | _ => false

/-- The text of a scalar. -/
def text? : Yaml → Option String
  | .scalar _ _ text => some text
  | _ => none

/-- A tag of the standard. -/
def standardTag (name : String) : String := "tag:yaml.org,2002:" ++ name

/-- The text of a scalar that may be of a kind with a tag of the standard. -/
def textOfKind? (kind : String) : Yaml → Option String
  | .scalar _ .plain text => some text
  | .scalar (some tag) .literal text => if tag = standardTag kind then some text else none
  | _ => none

/-- Whether a text says that something is missing. -/
def isNullText (text : String) : Bool := ["null", "Null", "NULL", "~"].contains text

/-- Whether a scalar without quotes says that something is missing, whatever its tag. -/
def isNull : Yaml → Bool
  | .scalar _ .plain text => text.isEmpty || isNullText text
  | _ => false

/-- Whether a value that may be missing is there, unless its tag says that it is missing and its
text does not. -/
def isPresent? : Yaml → Option Bool
  | .scalar (some tag) .plain text =>
    if tag ≠ standardTag "null" then some true
    else if isNullText text then some false
    else none
  | value => some !value.isNull

/-- The truth value that a value writes. -/
def bool? (value : Yaml) : Option Bool :=
  match value.textOfKind? "bool" with
  | none => none
  | some text =>
    if ["true", "True", "TRUE"].contains text then some true
    else if ["false", "False", "FALSE"].contains text then some false
    else none

/-- The number of 64 bits that digits write, of which there must be one. -/
def number64? (base : Nat) (text : List Char) : Option Nat :=
  if text.isEmpty then none else (Text.digits? base 0 text).filter (· < UInt64.size)

/-- Whether a decimal number has a zero in front that does not belong there. -/
def hasLeadingZero : List Char → Bool
  | '0' :: next :: rest => (next :: rest).all Char.isDigit
  | _ => false

/-- The number of 64 bits that a text writes in base ten, or with a mark in base sixteen, eight or
two. -/
def natOfText? (text : List Char) : Option Nat :=
  let unsigned :=
    match text with
    | '+' :: rest => rest
    | text => text
  match unsigned with
  | '0' :: 'x' :: digits => number64? 16 digits
  | '0' :: 'o' :: digits => number64? 8 digits
  | '0' :: 'b' :: digits => number64? 2 digits
  | digits => if hasLeadingZero digits then none else number64? 10 digits

/-- The number of 64 bits that a value writes. -/
def nat? (value : Yaml) : Option Nat :=
  (value.textOfKind? "int").bind fun text => natOfText? text.toList

/-- A truth value is not missing. -/
theorem not_isNull_of_bool? {value : Yaml} {truth : Bool} (h : value.bool? = some truth) :
    value.isNull = false := by
  unfold isNull
  split
  next text =>
    have hmem : text ∈ ["true", "True", "TRUE", "false", "False", "FALSE"] := by
      simp only [bool?, textOfKind?, List.contains_eq_mem, decide_eq_true_eq] at h
      grind
    simp only [List.mem_cons, List.not_mem_nil, or_false] at hmem
    rcases hmem with rfl | rfl | rfl | rfl | rfl | rfl <;> decide
  next => rfl

end Yaml

end DataSquare

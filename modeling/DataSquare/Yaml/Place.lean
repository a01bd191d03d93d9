import DataSquare.Text.Cut

/-!
# Places in a document

What is left of a document from a place on, with the line and the column of the place. A line may
end in several ways that are made one beforehand, and by the separators of lines and paragraphs,
which stay what they are. Main statement: going on by characters of the line leaves exactly the
text after them.
-/
namespace DataSquare.Yaml

/-- Whether a character separates parts of a line. -/
def isBlank (char : Char) : Bool := char = ' ' || char = '\t'

/-- Whether a character ends a line. -/
def isBreak (char : Char) : Bool := char = '\n' || char = '\u2028' || char = '\u2029'

/-- Whether a text starts with the end of a line, or has nothing at all. -/
def startsBreak : List Char → Bool
  | [] => true
  | char :: _ => isBreak char

/-- Whether a text starts with a blank or the end of a line, or has nothing at all. -/
def startsBlank : List Char → Bool
  | [] => true
  | char :: _ => isBlank char || isBreak char

/-- Whether a character means something between brackets and braces. -/
def isFlowIndicator (char : Char) : Bool := [',', '[', ']', '\x7b', '\x7d'].contains char

/-- A place in a document. -/
structure Place where
  /-- The line, from zero on. -/
  line : Nat
  /-- The number of characters in front on the line. -/
  column : Nat
  /-- The number of bytes in front on the line. -/
  offset : Nat
  /-- The characters from there on. -/
  rest : List Char
deriving DecidableEq, Repr

namespace Place

/-- The start of a document. -/
def start (text : List Char) : Place := ⟨0, 0, 0, text⟩

/-- The place after characters of the line, given what is left. -/
def past (taken rest : List Char) (place : Place) : Place :=
  { place with
    column := place.column + taken.length, offset := place.offset + Text.byteLength taken, rest }

/-- The place after as many characters of the line. -/
def pass (count : Nat) (place : Place) : Place :=
  place.past (place.rest.take count) (place.rest.drop count)

/-- The place after the characters of the line that have a property. -/
def passWhile (property : Char → Bool) (place : Place) : Place :=
  place.pass (place.rest.takeWhile property).length

/-- The place after the end of the line, if the line ends here. -/
def passBreak (place : Place) : Place :=
  match place.rest with
  | [] => place
  | char :: rest => if isBreak char then ⟨place.line + 1, 0, 0, rest⟩ else place

/-- Whether a mark of three equal characters stands alone at the start of a line. -/
def isAtMark (char : Char) (place : Place) : Bool :=
  place.column = 0 && place.rest.take 3 = [char, char, char] && startsBlank (place.rest.drop 3)

/-- Whether a document starts or ends at a mark. -/
def isAtAnyMark (place : Place) : Bool := place.isAtMark '-' || place.isAtMark '.'

/-- Going on by characters of the line leaves the text after them. -/
theorem rest_pass (count : Nat) (place : Place) :
    (place.pass count).rest = place.rest.drop count := rfl

/-- Going on by characters of the line moves the column by as many, if there are as many. -/
theorem column_pass {count : Nat} {place : Place} (h : count ≤ place.rest.length) :
    (place.pass count).column = place.column + count := by
  simp [pass, past, Nat.min_eq_left h]

end Place

/-- The text in front with what comes after it, its line breaks made one. -/
def unifyBreaks (front : List Char) : List Char → List Char
  | '\r' :: '\n' :: rest => unifyBreaks ('\n' :: front) rest
  | '\r' :: rest => unifyBreaks ('\n' :: front) rest
  | '\u0085' :: rest => unifyBreaks ('\n' :: front) rest
  | char :: rest => unifyBreaks (char :: front) rest
  | [] => front.reverse

end DataSquare.Yaml

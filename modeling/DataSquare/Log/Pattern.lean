import DataSquare.Text.CharSet

/-!
# Patterns

A pattern describes texts by sets of characters, by edges between characters, by parts one after
the other, by alternatives of which the first is preferred, and by repetition. It is looked for
from every place of a text on, an earlier place being preferred, and once a way through it is
complete all less preferred ways are given up. A text fits when some way is complete at its end.
Main statement: a pattern that is complete at once fits the empty text only.
-/
namespace DataSquare.Log

open Text (CharSet)

/-- What is asked of the characters on both sides of a place. -/
inductive Edge where
  /-- The text starts. -/
  | start
  /-- The text ends. -/
  | stop
  /-- A line starts, perhaps also after a carriage return. -/
  | lineStart (returns : Bool)
  /-- A line ends, perhaps also before a carriage return. -/
  | lineEnd (returns : Bool)
  /-- A word starts or ends. -/
  | word
  /-- No word starts or ends. -/
  | noWord
  /-- A word starts. -/
  | wordStart
  /-- A word ends. -/
  | wordEnd
deriving DecidableEq, Repr

namespace Edge

/-- Whether there is a character and it belongs to a word. -/
def isWord (char? : Option Char) : Bool :=
  char?.any fun char => char.isAlphanum || char = '_'

/-- Whether an edge is between two characters, either of which may be missing. -/
def holds (before? after? : Option Char) : Edge → Bool
  | .start => before?.isNone
  | .stop => after?.isNone
  | .lineStart false => before?.all fun char => char = '\n'
  | .lineStart true =>
    before?.all fun char => char = '\n' || (char = '\r' && after? ≠ some '\n')
  | .lineEnd false => after?.all fun char => char = '\n'
  | .lineEnd true =>
    after?.all fun char => char = '\r' || (char = '\n' && before? ≠ some '\r')
  | .word => isWord before? != isWord after?
  | .noWord => isWord before? == isWord after?
  | .wordStart => !isWord before? && isWord after?
  | .wordEnd => isWord before? && !isWord after?

end Edge

/-- A description of texts. -/
inductive Pattern where
  /-- Nothing at all. -/
  | empty
  /-- One character of a set. -/
  | oneOf (set : CharSet)
  /-- A place at an edge. -/
  | atEdge (edge : Edge)
  /-- One pattern and another after it. -/
  | both (first second : Pattern)
  /-- One pattern or another, of which the first is preferred. -/
  | either (first second : Pattern)
  /-- A pattern any number of times. -/
  | again (greedy : Bool) (body : Pattern)
  /-- A pattern at least once. -/
  | once (greedy : Bool) (body : Pattern)
deriving DecidableEq, Repr

namespace Pattern

/-- The number of parts of a pattern. -/
def size : Pattern → Nat
  | .empty => 1
  | .oneOf _ => 1
  | .atEdge _ => 1
  | .both first second => first.size + second.size + 1
  | .either first second => first.size + second.size + 1
  | .again _ body => body.size + 1
  | .once _ body => body.size + 1

/-- Whether a pattern may take no character. -/
def mayBeEmpty : Pattern → Bool
  | .empty => true
  | .oneOf _ => false
  | .atEdge _ => true
  | .both first second => first.mayBeEmpty && second.mayBeEmpty
  | .either first second => first.mayBeEmpty || second.mayBeEmpty
  | .again _ _ => true
  | .once _ body => body.mayBeEmpty

/-- One pattern or nothing. -/
def optional (greedy : Bool) (body : Pattern) : Pattern :=
  if greedy then .either body .empty else .either .empty body

/-- A pattern any number of times. A body that takes no character is not tried in vain. -/
def star (greedy : Bool) (body : Pattern) : Pattern :=
  if body.mayBeEmpty then optional greedy (.once greedy body) else .again greedy body

/-- What is still to be met on one way through a pattern. -/
abbrev Way := List Pattern

/-- The ways that wait for a character at a place, in the order of preference, up to the first one
that is complete. Ways that were met before are left out. -/
def settle (before? after? : Option Char) : Nat → List Way → List Way → List Way
  | 0, _, _ => []
  | _ + 1, _, [] => []
  | fuel + 1, met, way :: ways =>
    if met.contains way then settle before? after? fuel met ways
    else
      match way with
      | [] => [[]]
      | .oneOf set :: rest =>
        (.oneOf set :: rest) :: settle before? after? fuel (way :: met) ways
      | .empty :: rest => settle before? after? fuel (way :: met) (rest :: ways)
      | .atEdge edge :: rest =>
        settle before? after? fuel (way :: met)
          (if edge.holds before? after? then rest :: ways else ways)
      | .both first second :: rest =>
        settle before? after? fuel (way :: met) ((first :: second :: rest) :: ways)
      | .either first second :: rest =>
        settle before? after? fuel (way :: met) ((first :: rest) :: (second :: rest) :: ways)
      | .again true body :: rest =>
        settle before? after? fuel (way :: met)
          ((body :: .again true body :: rest) :: rest :: ways)
      | .again false body :: rest =>
        settle before? after? fuel (way :: met)
          (rest :: (body :: .again false body :: rest) :: ways)
      | .once greedy body :: rest =>
        settle before? after? fuel (way :: met) ((body :: .again greedy body :: rest) :: ways)

/-- A way after a character, if it goes on. -/
def Way.after? (char : Char) : Way → Option Way
  | .oneOf set :: rest => if set.contains char then some rest else none
  | _ => none

/-- Whether one of the ways through a pattern is complete at the end of a text. While `searching`,
the pattern may still start at every place. -/
def fitsFrom (pattern : Pattern) (searching : Bool) (before? : Option Char) (ways : List Way) :
    List Char → Bool
  | [] => (live none).contains []
  | char :: rest =>
    let ways := live (some char)
    fitsFrom pattern (searching && !ways.contains []) (some char)
      (ways.filterMap (Way.after? char)) rest
where
  /-- The ways that wait at the place in front of a character. -/
  live (after? : Option Char) : List Way :=
    let ways := if searching then ways ++ [[pattern]] else ways
    settle before? after? (ways.length + 4 * pattern.size + 3) [] ways

/-- Whether a text fits a pattern. -/
def fits (pattern : Pattern) (text : List Char) : Bool := pattern.fitsFrom true none [] text

/-- A pattern that is complete at once fits no text but the empty one. -/
theorem fits_empty_iff {text : List Char} : fits .empty text = true ↔ text = [] := by
  have lost : ∀ (text : List Char) (before? : Option Char),
      fitsFrom .empty false before? [] text = false := by
    intro text
    induction text with
    | nil => intro before?; simp [fitsFrom, fitsFrom.live, settle]
    | cons char rest ih => intro before?; simp [fitsFrom, fitsFrom.live, settle, ih]
  cases text with
  | nil => simp [fits, fitsFrom, fitsFrom.live, settle, size]
  | cons char rest =>
    have done : List.filterMap (Way.after? char) [[]] = [] := rfl
    simp [fits, fitsFrom, fitsFrom.live, settle, size, done, lost]

end Pattern

end DataSquare.Log

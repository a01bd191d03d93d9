import DataSquare.Yaml.Place

/-!
# Gaps in scalars

A scalar that runs over several lines is folded: the first end of a line and the blanks around it
become a space, unless more lines end, which then stay. A separator of lines or paragraphs stays in
any case. Main statement: a single end of a line is folded into a space.
-/
namespace DataSquare.Yaml

/-- What separates two words of a scalar. -/
structure Gap where
  /-- The blanks in front of the first end of a line. -/
  blanks : List Char
  /-- The ends of lines. -/
  breaks : List Char
  /-- The place after the gap. -/
  after : Place
deriving DecidableEq, Repr

/-- What stands for the ends of lines in a folded scalar. -/
def foldBreaks : List Char → List Char
  | ['\n'] => [' ']
  | '\n' :: later => later
  | breaks => breaks

namespace Gap

/-- Whether a gap leaves the line. -/
def leavesLine (gap : Gap) : Bool := !gap.breaks.isEmpty

/-- What stands for a gap in a scalar. -/
def text (gap : Gap) : List Char :=
  if gap.leavesLine then foldBreaks gap.breaks else gap.blanks

/-- Reads on in a gap, given what was read of it, last first. A tab does not indent a line up to
a column. -/
def read? (indent : Nat) (blanks breaks : List Char) (line column offset : Nat) :
    List Char → Option Gap
  | [] => some ⟨blanks.reverse, breaks.reverse, ⟨line, column, offset, []⟩⟩
  | char :: rest =>
    if isBreak char then read? indent blanks (char :: breaks) (line + 1) 0 0 rest
    else if !isBlank char then
      some ⟨blanks.reverse, breaks.reverse, ⟨line, column, offset, char :: rest⟩⟩
    else if breaks.isEmpty then
      read? indent (char :: blanks) breaks line (column + 1) (offset + 1) rest
    else if char = '\t' && column < indent then none
    else read? indent blanks breaks line (column + 1) (offset + 1) rest

/-- The gap at a place. -/
def at? (indent : Nat) (place : Place) : Option Gap :=
  read? indent [] [] place.line place.column place.offset place.rest

end Gap

/-- A single end of a line is folded into a space. -/
theorem foldBreaks_newline : foldBreaks ['\n'] = [' '] := rfl

/-- A separator of lines stays. -/
theorem foldBreaks_separator (later : List Char) :
    foldBreaks ('\u2028' :: later) = '\u2028' :: later := by
  simp [foldBreaks]

end DataSquare.Yaml

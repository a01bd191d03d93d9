import DataSquare.Yaml.Scalar.Gap

/-!
# Scalars as blocks of lines

A block of indented lines is a scalar whose lines stay as they are or are folded. Marks in front of
it say how far it is indented and what becomes of the ends of lines at its end. Main statement: the
ends of lines at the end of a block are dropped when the block is stripped.
-/
namespace DataSquare.Yaml

/-- What is done with the ends of lines at the end of a block. -/
inductive Chomping where
  /-- They are dropped. -/
  | strip
  /-- One is kept. -/
  | clip
  /-- All are kept. -/
  | keep
deriving DecidableEq, Repr

/-- How a block of lines is read. -/
structure BlockHeader where
  /-- What is done with the ends of lines at its end. -/
  chomping : Chomping
  /-- By how much it is indented, if that is written. -/
  indent? : Option Nat
deriving DecidableEq, Repr

namespace BlockHeader

/-- The sign for what is done with the ends of lines. -/
def sign? : Char → Option Chomping
  | '-' => some .strip
  | '+' => some .keep
  | _ => none

/-- Reads the digit for the indentation, if there is one, which is not zero. -/
def digit? (text : List Char) : Option (Option Nat × List Char) :=
  match text with
  | [] => some (none, text)
  | char :: rest =>
    if !char.isDigit then some (none, text)
    else if char = '0' then none
    else some (some (char.toNat - 48), rest)

/-- Reads the marks after the character that opens a block: a sign and a digit in either order. -/
def read? (text : List Char) : Option (BlockHeader × List Char) :=
  match text.head?.bind sign? with
  | some chomping => do
    let (indent?, rest) ← digit? (text.drop 1)
    some (⟨chomping, indent?⟩, rest)
  | none => do
    let (indent?, rest) ← digit? text
    match indent?, rest.head?.bind sign? with
    | some _, some chomping => some (⟨chomping, indent?⟩, rest.drop 1)
    | _, _ => some (⟨.clip, indent?⟩, rest)

end BlockHeader

/-- Lines without content. -/
structure EmptyLines where
  /-- Their ends. -/
  breaks : List Char
  /-- The furthest column that is reached by spaces. -/
  furthest : Nat
  /-- The place after them and the indentation of the line that follows. -/
  after : Place
deriving DecidableEq, Repr

/-- Reads lines without content, given the ends of those in front, last first, and the furthest
column so far. Spaces indent up to a column, or as far as they go, and a tab does not. -/
def EmptyLines.read? (indent? : Option Nat) (breaks : List Char)
    (furthest line column offset : Nat) : List Char → Option EmptyLines
  | [] => some ⟨breaks.reverse, max furthest column, ⟨line, column, offset, []⟩⟩
  | char :: rest =>
    let indents := indent?.all fun indent => column < indent
    if indents && char = ' ' then
      read? indent? breaks furthest line (column + 1) (offset + 1) rest
    else if indents && char = '\t' then none
    else if isBreak char then
      read? indent? (char :: breaks) (max furthest column) (line + 1) 0 0 rest
    else some ⟨breaks.reverse, max furthest column, ⟨line, column, offset, char :: rest⟩⟩

/-- The lines without content at a place. -/
def EmptyLines.at? (indent? : Option Nat) (place : Place) : Option EmptyLines :=
  read? indent? [] 0 place.line place.column place.offset place.rest

/-- How far a block is read. -/
structure BlockProgress where
  /-- The text, last character first. -/
  read : List Char
  /-- The end of the last line with content. -/
  lineEnd : List Char
  /-- Whether that line starts with a blank. -/
  startsBlank : Bool
  /-- The lines without content after it. -/
  empty : EmptyLines
deriving DecidableEq, Repr

namespace BlockProgress

/-- What stands between the last line with content and the next one. -/
def between (folded nextBlank : Bool) (progress : BlockProgress) : List Char :=
  if folded && progress.lineEnd = ['\n'] && !progress.startsBlank && !nextBlank then
    foldBreaks ('\n' :: progress.empty.breaks)
  else progress.lineEnd ++ progress.empty.breaks

/-- The text of a block that is read. -/
def text (chomping : Chomping) (progress : BlockProgress) : List Char :=
  progress.read.reverse ++
    match chomping with
    | .strip => []
    | .clip => progress.lineEnd
    | .keep => progress.lineEnd ++ progress.empty.breaks

/-- Reads the lines that are indented to a column. The number of steps is bounded. -/
def lines? (folded : Bool) (indent fuel : Nat) (progress : BlockProgress) :
    Option BlockProgress :=
  match fuel with
  | 0 => none
  | fuel + 1 =>
    let place := progress.empty.after
    match place.rest with
    | [] => some progress
    | char :: _ =>
      if place.column ≠ indent then some progress
      else
        let line := place.rest.takeWhile fun char => !isBreak char
        let place := place.pass line.length
        match EmptyLines.at? (some indent) place.passBreak with
        | none => none
        | some empty =>
          let read := line.reverse ++ (progress.between folded (isBlank char)).reverse ++
            progress.read
          lines? folded indent fuel ⟨read, place.rest.take 1, isBlank char, empty⟩

/-- A block that is stripped has nothing after its last line with content. -/
theorem text_strip (progress : BlockProgress) : progress.text .strip = progress.read.reverse := by
  simp [text]

end BlockProgress

/-- A block after the character that opens it, with the place after it. It is inside of a block
that is indented to a column, if there is one. -/
def block? (folded : Bool) (outer? : Option Nat) (fuel : Nat) (place : Place) :
    Option (List Char × Place) := do
  let line := place.rest.takeWhile fun char => !isBreak char
  let (header, rest) ← BlockHeader.read? line
  let place := (place.pass (line.length - rest.length)).passWhile isBlank
  let place :=
    if place.rest.head? = some '#' then place.passWhile fun char => !isBreak char else place
  if !startsBreak place.rest then none
  let indent? := header.indent?.map fun more => outer?.getD 0 + more
  let empty ← EmptyLines.at? indent? place.passBreak
  let least := (outer?.map (· + 1)).getD 0
  let indent := indent?.getD (max (max empty.furthest least) 1)
  let progress ← BlockProgress.lines? folded indent fuel ⟨[], [], false, empty⟩
  some (progress.text header.chomping, progress.empty.after)

end DataSquare.Yaml

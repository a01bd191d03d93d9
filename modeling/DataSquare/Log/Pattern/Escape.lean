import DataSquare.Log.Pattern
import DataSquare.Text.Basic

/-!
# Pieces of a pattern

A pattern is written with flags, which say how its pieces are meant. A piece is a character, a set
or an edge. A backslash gives a letter a meaning and takes one from a sign. Words, digits and blanks
of all scripts are not known: such a set is read only where patterns are restricted to ASCII. The
readers return what is left of the text. Main statement: a sign after a backslash stands for itself.
-/
namespace DataSquare.Log.Pattern

open Text (CharSet)

/-- How the pieces of a pattern are meant. -/
structure Flags where
  /-- Whether either case of a letter stands for both. -/
  anyCase : Bool
  /-- Whether the edges of a text are those of its lines. -/
  lines : Bool
  /-- Whether a dot is a line break too. -/
  dotAll : Bool
  /-- Whether repetition takes as little as possible. -/
  lazy : Bool
  /-- Whether the pattern is about characters of all scripts. -/
  scripts : Bool
  /-- Whether a carriage return breaks lines too. -/
  returns : Bool
  /-- Whether blanks and comments are left out. -/
  spaced : Bool
deriving DecidableEq, Repr

namespace Flags

/-- The flags at the start of a pattern. -/
def initial : Flags := ⟨false, false, false, false, true, false, false⟩

/-- The flags with one of them set, whose letter is given. -/
def set? (flags : Flags) (value : Bool) : Char → Option Flags
  | 'i' => some { flags with anyCase := value }
  | 'm' => some { flags with lines := value }
  | 's' => some { flags with dotAll := value }
  | 'U' => some { flags with lazy := value }
  | 'u' => some { flags with scripts := value }
  | 'R' => some { flags with returns := value }
  | 'x' => some { flags with spaced := value }
  | _ => none

end Flags

/-- A text after the blanks and comments in front of it, given whether it is inside a comment. -/
def afterSpace (comment : Bool) : List Char → List Char
  | [] => []
  | char :: rest =>
    if comment then afterSpace (char ≠ '\n') rest
    else if char = '#' then afterSpace true rest
    else if Text.isBlank char then afterSpace false rest
    else char :: rest

/-- A text after what is left out in front of it. -/
def Flags.skip (flags : Flags) (text : List Char) : List Char :=
  if flags.spaced then afterSpace false text else text

/-- What is left out in front of a text makes it no longer. -/
theorem Flags.length_skip_le (flags : Flags) (text : List Char) :
    (flags.skip text).length ≤ text.length := by
  have general : ∀ comment, (afterSpace comment text).length ≤ text.length := by
    induction text with
    | nil => simp [afterSpace]
    | cons char rest ih =>
      intro comment
      unfold afterSpace
      split
      · exact Nat.le_succ_of_le (ih _)
      · split
        · exact Nat.le_succ_of_le (ih _)
        · split
          · exact Nat.le_succ_of_le (ih _)
          · exact Nat.le_refl _
  unfold skip
  split
  · exact general false
  · exact Nat.le_refl _

/-- What a pattern is made of. -/
inductive Piece where
  /-- A character. -/
  | char (char : Char)
  /-- A set of characters. -/
  | set (set : CharSet)
  /-- An edge. -/
  | edge (edge : Edge)
deriving DecidableEq, Repr

/-- The digits. -/
def digits : CharSet := .range '0' '9'

/-- The blanks. -/
def blanks : CharSet := .ranges [('\t', '\r'), (' ', ' ')]

/-- The characters of words. -/
def wordChars : CharSet := .ranges [('0', '9'), ('A', 'Z'), ('_', '_'), ('a', 'z')]

/-- The character whose number is written with as many digits of base sixteen as given. -/
def numbered? (flags : Flags) (value : Nat) : Nat → List Char → Option (Char × List Char)
  | 0, text => if value.isValidChar then some (Char.ofNat value, text) else none
  | count + 1, text => do
    match flags.skip text with
    | [] => none
    | char :: rest =>
      let digit ← Text.digit? 16 char
      numbered? flags (16 * value + digit) count rest

/-- Reads what is after a backslash. -/
def escape? (flags : Flags) : List Char → Option (Piece × List Char)
  | 'x' :: rest => do
    let (char, rest) ← numbered? flags 0 2 rest
    if !flags.scripts && 0x7f < char.toNat then none else some (.char char, rest)
  | 'u' :: rest => (numbered? flags 0 4 rest).map fun (char, rest) => (.char char, rest)
  | 'U' :: rest => (numbered? flags 0 8 rest).map fun (char, rest) => (.char char, rest)
  | 'a' :: rest => some (.char '\x07', rest)
  | 'f' :: rest => some (.char '\x0c', rest)
  | 't' :: rest => some (.char '\t', rest)
  | 'n' :: rest => some (.char '\n', rest)
  | 'r' :: rest => some (.char '\r', rest)
  | 'v' :: rest => some (.char '\x0b', rest)
  | 'A' :: rest => some (.edge .start, rest)
  | 'z' :: rest => some (.edge .stop, rest)
  | char :: rest =>
    if char.isAlphanum || char = '<' || char = '>' then
      if flags.scripts then none else (ascii? char).map fun piece => (piece, rest)
    else if char.toNat < 0x80 then some (.char char, rest)
    else none
  | [] => none
where
  /-- What a letter means where patterns are restricted to ASCII. -/
  ascii? : Char → Option Piece
    | 'd' => some (.set digits)
    | 's' => some (.set blanks)
    | 'w' => some (.set wordChars)
    | 'b' => some (.edge .word)
    | 'B' => some (.edge .noWord)
    | '<' => some (.edge .wordStart)
    | '>' => some (.edge .wordEnd)
    | _ => none

/-- A character in either case. -/
def cases (char : Char) : CharSet :=
  if char.isAlpha then .ranges [(char.toLower, char.toLower), (char.toUpper, char.toUpper)]
  else .single char

/-- The pattern of a character. -/
def ofChar? (flags : Flags) (char : Char) : Option Pattern :=
  if !flags.anyCase then some (.oneOf (.single char))
  else if flags.scripts then none
  else some (.oneOf (cases char))

/-- A set with both cases of each of its letters, where either case stands for both. -/
def withCases? (flags : Flags) (set : CharSet) : Option CharSet :=
  if !flags.anyCase then some set
  else if flags.scripts then none
  else
    let letters := "ABCDEFGHIJKLMNOPQRSTUVWXYZ".toList.filter fun char =>
      set.contains char || set.contains char.toLower
    some (.union set (.unions (letters.map cases)))

/-- A dot after a backslash is a dot. -/
theorem escape?_dot (flags : Flags) (rest : List Char) :
    escape? flags ('.' :: rest) = some (.char '.', rest) := by
  rfl

end DataSquare.Log.Pattern

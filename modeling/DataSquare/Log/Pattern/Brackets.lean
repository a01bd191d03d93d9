import DataSquare.Log.Pattern.Escape

/-!
# Sets between brackets

A set is written between brackets as characters, ranges, names of sets and sets within the set. A
circumflex in front takes the complement. Two equal signs between the parts stand for the
intersection, the difference or the symmetric difference of what is on their sides, from the left
on. Sets within sets are held as the levels that are still open, the innermost first. Main
statement: without an operation in front, what is written is a set as it stands.
-/
namespace DataSquare.Log.Pattern

open Text (CharSet)

/-- An operation on two sets. -/
inductive SetOperation where
  /-- What is in both. -/
  | inter
  /-- What is in the first but not in the second. -/
  | diff
  /-- What is in exactly one. -/
  | symmDiff
deriving DecidableEq, Repr

/-- The set that an operation makes of two. -/
def SetOperation.apply : SetOperation → CharSet → CharSet → CharSet
  | .inter => .inter
  | .diff => .diff
  | .symmDiff => .symmDiff

/-- A set whose bracket is open. -/
structure OpenSet where
  /-- Whether the complement is meant. -/
  negated : Bool
  /-- The set in front of the last operation, with that operation. -/
  left? : Option (CharSet × SetOperation)
  /-- The parts after that operation, last first. -/
  parts : List CharSet
deriving DecidableEq, Repr

namespace OpenSet

/-- An open set with one more part. -/
def add (part : CharSet) (level : OpenSet) : OpenSet := { level with parts := part :: level.parts }

/-- What is written so far of a set. -/
def soFar? (flags : Flags) (level : OpenSet) : Option CharSet :=
  let right := CharSet.unions level.parts.reverse
  match level.left? with
  | none => some right
  | some (left, operation) => do
    some (operation.apply (← withCases? flags left) (← withCases? flags right))

/-- An open set before what is on the right of an operation. -/
def operate? (flags : Flags) (operation : SetOperation) (level : OpenSet) : Option OpenSet :=
  (level.soFar? flags).map fun left => { level with left? := some (left, operation), parts := [] }

/-- The set whose bracket is closed. Where patterns are restricted to ASCII there is no
complement. -/
def close? (flags : Flags) (level : OpenSet) : Option CharSet := do
  let set ← withCases? flags (← level.soFar? flags)
  if !level.negated then some set
  else if flags.scripts then some set.compl
  else none

/-- Without an operation, what is written is the union of the parts. -/
theorem soFar?_of_left?_eq_none {flags : Flags} {level : OpenSet} (h : level.left? = none) :
    level.soFar? flags = some (.unions level.parts.reverse) := by
  simp [soFar?, h]

end OpenSet

/-- The sets that have names. -/
def namedSets : List (String × CharSet) := [
  ("alnum", .ranges [('0', '9'), ('A', 'Z'), ('a', 'z')]),
  ("alpha", .ranges [('A', 'Z'), ('a', 'z')]),
  ("ascii", .range '\x00' '\x7f'),
  ("blank", .ranges [('\t', '\t'), (' ', ' ')]),
  ("cntrl", .ranges [('\x00', '\x1f'), ('\x7f', '\x7f')]),
  ("digit", digits),
  ("graph", .range '!' '~'),
  ("lower", .range 'a' 'z'),
  ("print", .range ' ' '~'),
  ("punct", .ranges [('!', '/'), (':', '@'), ('[', '\x60'), ('\x7b', '~')]),
  ("space", blanks),
  ("upper", .range 'A' 'Z'),
  ("word", wordChars),
  ("xdigit", .ranges [('0', '9'), ('A', 'F'), ('a', 'f')])]

/-- Reads the name of a set after the bracket that opens it, if there is one: the set, whether its
complement is meant, and what is left. -/
def namedSet? (text : List Char) : Option (CharSet × Bool × List Char) :=
  match text with
  | ':' :: '^' :: rest => named true rest
  | ':' :: rest => named false rest
  | _ => none
where
  /-- Reads the name itself with what closes it. -/
  named (negated : Bool) (text : List Char) : Option (CharSet × Bool × List Char) :=
    let name := text.takeWhile (· ≠ ':')
    match text.drop name.length with
    | ':' :: ']' :: rest =>
      (namedSets.lookup (String.ofList name)).map fun set => (set, negated, rest)
    | _ => none

/-- Reads what opens a set after its bracket: a circumflex, hyphens that stand for themselves, and
a closing bracket that stands for itself when nothing is in front of it. -/
def openSet (flags : Flags) (text : List Char) : OpenSet × List Char :=
  match flags.skip text with
  | '^' :: rest => first true (flags.skip rest)
  | rest => first false rest
where
  /-- Reads what may stand for itself at the start of a set only. -/
  first (negated : Bool) (text : List Char) : OpenSet × List Char :=
    let (parts, rest) := hyphens [] text
    match parts, rest with
    | [], ']' :: rest => (⟨negated, none, [.single ']']⟩, flags.skip rest)
    | parts, rest => (⟨negated, none, parts⟩, rest)
  /-- Reads hyphens. -/
  hyphens (parts : List CharSet) : List Char → List CharSet × List Char
    | '-' :: rest => hyphens (.single '-' :: parts) (flags.skip rest)
    | text => (parts, text)
  termination_by text => text.length
  decreasing_by exact Nat.lt_succ_of_le (flags.length_skip_le rest)

/-- Reads a character or a set that a part of a set starts with. -/
def setPiece? (flags : Flags) : List Char → Option (Piece × List Char)
  | '\\' :: rest => escape? flags rest
  | char :: rest => some (.char char, rest)
  | [] => none

/-- The set of a character. Where patterns are restricted to ASCII there is no other character. -/
def charSet? (flags : Flags) (char : Char) : Option CharSet :=
  if flags.scripts || char.toNat < 0x80 then some (.single char) else none

/-- Reads a part of a set: a character, a range or a set that a letter stands for. -/
def setPart? (flags : Flags) (text : List Char) : Option (CharSet × List Char) := do
  let (piece, rest) ← setPiece? flags text
  match flags.skip rest with
  | [] => none
  | '-' :: after =>
    match flags.skip after with
    | ']' :: _ => single piece (flags.skip rest)
    | '-' :: _ => single piece (flags.skip rest)
    | [] => none
    | after => do
      let (last, rest) ← setPiece? flags after
      match piece, last with
      | .char low, .char high =>
        let _ ← charSet? flags low
        let _ ← charSet? flags high
        if low ≤ high then some (.range low high, rest) else none
      | _, _ => none
  | rest => single piece rest
where
  /-- The set of a single piece. -/
  single (piece : Piece) (rest : List Char) : Option (CharSet × List Char) :=
    match piece with
    | .char char => (charSet? flags char).map fun set => (set, rest)
    | .set set => some (set, rest)
    | .edge _ => none

/-- Reads the rest of a set, with a bound on the number of its parts. -/
def brackets? (flags : Flags) : Nat → OpenSet → List OpenSet → List Char →
    Option (CharSet × List Char)
  | 0, _, _, _ => none
  | fuel + 1, level, outer, text =>
    match flags.skip text with
    | [] => none
    | '[' :: rest =>
      match namedSet? rest with
      | some (set, negated, rest) =>
        if !negated then brackets? flags fuel (level.add set) outer rest
        else if flags.scripts then brackets? flags fuel (level.add set.compl) outer rest
        else none
      | none =>
        let (inner, rest) := openSet flags rest
        brackets? flags fuel inner (level :: outer) rest
    | ']' :: rest =>
      match level.close? flags, outer with
      | none, _ => none
      | some set, [] => some (set, rest)
      | some set, parent :: outer => brackets? flags fuel (parent.add set) outer rest
    | '&' :: '&' :: rest => operate fuel .inter level outer rest
    | '-' :: '-' :: rest => operate fuel .diff level outer rest
    | '~' :: '~' :: rest => operate fuel .symmDiff level outer rest
    | text =>
      match setPart? flags text with
      | none => none
      | some (set, rest) => brackets? flags fuel (level.add set) outer rest
where
  /-- Reads on after an operation. -/
  operate (fuel : Nat) (operation : SetOperation) (level : OpenSet) (outer : List OpenSet)
      (rest : List Char) : Option (CharSet × List Char) :=
    match level.operate? flags operation with
    | none => none
    | some level => brackets? flags fuel level outer rest

end DataSquare.Log.Pattern

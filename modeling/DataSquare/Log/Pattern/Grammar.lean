import DataSquare.Log.Pattern.Brackets
import DataSquare.Text.Alphanumeric

/-!
# Written patterns

A pattern is written as its characters, with signs for the rest: a dot for any character, brackets
for sets, a circumflex and a dollar sign for edges, bars between alternatives, signs for repetition
after what is repeated, and parentheses around parts, which may name the part or set flags in it.
Parts that are open are held as levels, the innermost first. Main statement: a part without anything
written in it is the empty pattern.
-/
namespace DataSquare.Log.Pattern

open Text (CharSet)

/-- A part whose parenthesis is open. -/
structure OpenPart where
  /-- The flags in front of the part. -/
  flags : Flags
  /-- The alternatives that are complete, last first. -/
  alternatives : List Pattern
  /-- What the last alternative is made of, last first. A setting of flags is nothing. -/
  items : List (Option Pattern)
deriving DecidableEq, Repr

namespace OpenPart

/-- The start of a part. -/
def fresh (flags : Flags) : OpenPart := ⟨flags, [], []⟩

/-- An open part with one more item. -/
def add (item : Pattern) (part : OpenPart) : OpenPart :=
  { part with items := some item :: part.items }

/-- The last alternative so far. -/
def last (part : OpenPart) : Pattern :=
  match part.items.reverse.filterMap id with
  | [] => .empty
  | item :: rest => rest.foldl .both item

/-- An open part at the start of its next alternative. -/
def next (part : OpenPart) : OpenPart :=
  { part with alternatives := part.last :: part.alternatives, items := [] }

/-- The pattern of a part. -/
def close (part : OpenPart) : Pattern := part.alternatives.foldl (fun later earlier =>
  .either earlier later) part.last

/-- A part with its last item repeated, if there is one. -/
def repeated? (repeating : Pattern → Pattern) (part : OpenPart) : Option OpenPart :=
  match part.items with
  | some item :: rest => some { part with items := some (repeating item) :: rest }
  | _ => none

/-- A part in which nothing is written is the empty pattern. -/
theorem close_fresh (flags : Flags) : (fresh flags).close = .empty := rfl

end OpenPart

/-- How far a pattern is read. -/
structure Progress where
  /-- The flags that hold. -/
  flags : Flags
  /-- The innermost part. -/
  part : OpenPart
  /-- The parts around it. -/
  outer : List OpenPart
  /-- The names of parts. -/
  names : List String
deriving DecidableEq, Repr

/-- Whether a name of a part may go on with a character, or start with it. -/
def isNameChar (first : Bool) (char : Char) : Bool :=
  char = '_' ||
    if first then Text.isAlphanumeric char && !char.isDigit
    else Text.isAlphanumeric char || char = '.' || char = '[' || char = ']'

/-- Reads the name of a part up to the bracket that closes it. -/
def partName? (text : List Char) : Option (String × List Char) :=
  let name := text.takeWhile (· ≠ '>')
  match name, text.drop name.length with
  | first :: later, '>' :: rest =>
    if isNameChar true first && later.all (isNameChar false) then some (String.ofList name, rest)
    else none
  | _, _ => none

/-- Reads flags up to a character that ends them, given the letters in front and whether a hyphen is
among them. Returns the flags with that character and what is left. -/
def flags? (flags : Flags) (letters : List Char) (value : Bool) :
    List Char → Option (Flags × Char × List Char)
  | [] => none
  | char :: rest =>
    if char = ':' || char = ')' then
      if letters.head? = some '-' || (char = ')' && letters.isEmpty) then none
      else some (flags, char, rest)
    else if letters.contains char then none
    else if char = '-' then flags? flags ('-' :: letters) false rest
    else
      match flags.set? value char with
      | none => none
      | some flags => flags? flags (char :: letters) value rest

namespace Progress

/-- Progress with one more item. -/
def add (item : Pattern) (progress : Progress) : Progress :=
  { progress with part := progress.part.add item }

/-- Progress into a part with flags of its own. -/
def enter (flags : Flags) (progress : Progress) : Progress :=
  { progress with flags, part := .fresh progress.flags, outer := progress.part :: progress.outer }

/-- Reads what opens a part after its parenthesis. -/
def open? (progress : Progress) (text : List Char) : Option (Progress × List Char) :=
  let named (text : List Char) : Option (Progress × List Char) := do
    let (name, rest) ← partName? text
    if progress.names.contains name then none
    else some ({ progress.enter progress.flags with names := name :: progress.names }, rest)
  match progress.flags.skip text with
  | '?' :: '=' :: _ => none
  | '?' :: '!' :: _ => none
  | '?' :: '<' :: '=' :: _ => none
  | '?' :: '<' :: '!' :: _ => none
  | '?' :: 'P' :: '<' :: rest => named rest
  | '?' :: '<' :: rest => named rest
  | '?' :: rest => do
    let (flags, last, rest) ← flags? progress.flags [] true rest
    if last = ':' then some (progress.enter flags, rest)
    else
      let part := { progress.part with items := none :: progress.part.items }
      some ({ progress with flags, part }, rest)
  | rest => some (progress.enter progress.flags, rest)

/-- Progress out of a part. -/
def close? (progress : Progress) : Option Progress :=
  match progress.outer with
  | [] => none
  | parent :: outer =>
    some { progress with
      flags := progress.part.flags, part := parent.add progress.part.close, outer }

/-- Progress past a sign for repetition, after which a question mark changes the preference. -/
def repeat? (progress : Progress) (repeating : Bool → Pattern → Pattern) (text : List Char) :
    Option (Progress × List Char) :=
  let (greedy, rest) :=
    match text with
    | '?' :: rest => (progress.flags.lazy, rest)
    | rest => (!progress.flags.lazy, rest)
  (progress.part.repeated? (repeating greedy)).map fun part => ({ progress with part }, rest)

/-- Progress past a piece. -/
def piece? (progress : Progress) : Piece → Option Progress
  | .char char => (ofChar? progress.flags char).map progress.add
  | .set set => some (progress.add (.oneOf set))
  | .edge edge => some (progress.add (.atEdge edge))

/-- Progress past a dot, which stands for any character of any script. -/
def dot? (progress : Progress) : Option Progress :=
  if !progress.flags.scripts then none
  else if progress.flags.dotAll then some (progress.add (.oneOf .all))
  else if progress.flags.returns then
    some (progress.add (.oneOf (.compl (.ranges [('\n', '\n'), ('\r', '\r')]))))
  else some (progress.add (.oneOf (.compl (.single '\n'))))

/-- Progress past what a text starts with. -/
def step? (progress : Progress) (char : Char) (rest : List Char) : Option (Progress × List Char) :=
  match char with
  | '(' => progress.open? rest
  | ')' => progress.close?.map fun progress => (progress, rest)
  | '|' => some ({ progress with part := progress.part.next }, rest)
  | '[' => do
    let (level, inner) := openSet progress.flags rest
    let (set, rest) ← brackets? progress.flags (rest.length + 1) level [] inner
    some (progress.add (.oneOf set), rest)
  | '?' => progress.repeat? optional rest
  | '*' => progress.repeat? star rest
  | '+' => progress.repeat? once rest
  | '\x7b' => none
  | '\\' => do
    let (piece, rest) ← escape? progress.flags rest
    (progress.piece? piece).map fun progress => (progress, rest)
  | '.' => progress.dot?.map fun progress => (progress, rest)
  | '^' =>
    let edge := if progress.flags.lines then Edge.lineStart progress.flags.returns else .start
    some (progress.add (.atEdge edge), rest)
  | '$' =>
    let edge := if progress.flags.lines then Edge.lineEnd progress.flags.returns else .stop
    some (progress.add (.atEdge edge), rest)
  | char => (progress.piece? (.char char)).map fun progress => (progress, rest)

/-- Progress to the end of a text, with a bound on the number of steps. -/
def finish? : Nat → Progress → List Char → Option Progress
  | 0, _, _ => none
  | fuel + 1, progress, text =>
    match progress.flags.skip text with
    | [] => if progress.outer.isEmpty then some progress else none
    | char :: rest =>
      match progress.step? char rest with
      | none => none
      | some (progress, rest) => finish? fuel progress rest

end Progress

/-- The pattern that a text writes. -/
def ofText? (text : String) : Option Pattern :=
  let start : Progress := ⟨.initial, .fresh .initial, [], []⟩
  (start.finish? (text.length + 1) text.toList).map fun progress => progress.part.close

end DataSquare.Log.Pattern

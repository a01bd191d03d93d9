import DataSquare.Yaml.Scalar.Block
import DataSquare.Yaml.Scalar.Plain
import DataSquare.Yaml.Scalar.Quoted
import DataSquare.Yaml.Token

/-!
# Reading tokens

Tokens are read one after the other with the columns of the blocks that are open. What starts where
a key may start is held as a possible key, one at each depth of brackets, until a colon on the same
line and within 1024 bytes makes it a key. Then the tokens in front of a key are put where it
starts. Every loop is bounded by the length of the text. Main statement: reading a token keeps the
tokens of a state whose blocks go on.
-/
namespace DataSquare.Yaml

/-- What may turn out to be a key. -/
structure PossibleKey where
  /-- Whether it has to turn out to be one. -/
  required : Bool
  /-- The number of tokens in front of it. -/
  index : Nat
  /-- Where it starts. -/
  place : Place
deriving DecidableEq, Repr

/-- Whether a colon at a place is too far away to make a key. -/
def PossibleKey.isStale (place : Place) (key : PossibleKey) : Bool :=
  key.place.line < place.line || key.place.offset + 1024 < place.offset

/-- How far tokens are read. -/
structure Lexer where
  /-- The place that is reached. -/
  place : Place
  /-- The tokens so far. -/
  tokens : Array Token
  /-- The columns of the blocks that are open, the innermost first. -/
  columns : List Nat
  /-- The possible key at the depth of brackets that is reached. -/
  key? : Option PossibleKey
  /-- The possible keys at the depths around it, the innermost first. -/
  outer : List (Option PossibleKey)
  /-- Whether a key may start here. -/
  keyAllowed : Bool
  /-- A bound on the number of steps, which is the length of the text. -/
  bound : Nat

namespace Lexer

/-- The state in front of a text. -/
def start (text : List Char) : Lexer :=
  ⟨.start text, #[], [], none, [], true, text.length + 2⟩

/-- Whether a bracket or a brace is open. -/
def isFlow (lexer : Lexer) : Bool := !lexer.outer.isEmpty

/-- The text that is left. -/
def rest (lexer : Lexer) : List Char := lexer.place.rest

/-- Adds a token. -/
def add (token : Token) (lexer : Lexer) : Lexer :=
  { lexer with tokens := lexer.tokens.push token }

/-- Adds a token in front of others. -/
def insert (index : Nat) (token : Token) (lexer : Lexer) : Lexer :=
  { lexer with tokens := lexer.tokens.insertIdxIfInBounds index token }

/-- Goes past characters of the line. -/
def pass (count : Nat) (lexer : Lexer) : Lexer :=
  { lexer with place := lexer.place.pass count }

/-- Sets whether a key may start here. -/
def allow (keyAllowed : Bool) (lexer : Lexer) : Lexer := { lexer with keyAllowed }

/-- Ends the blocks that start beyond a column, or all of them. -/
def endBlocks (column? : Option Nat) (lexer : Lexer) : Lexer :=
  if lexer.isFlow then lexer
  else
    let ended := lexer.columns.takeWhile fun start => column?.all fun column => column < start
    { lexer with
      tokens := lexer.tokens ++ Array.replicate ended.length .blockEnd
      columns := lexer.columns.drop ended.length }

/-- Starts a block at a column, if none starts as far to the right already. -/
def startBlock (column index : Nat) (token : Token) (lexer : Lexer) : Lexer :=
  if lexer.isFlow || lexer.columns.head?.any fun start => column ≤ start then lexer
  else { lexer.insert index token with columns := column :: lexer.columns }

/-- Gives up the possible key, unless it has to be one. -/
def dropKey? (lexer : Lexer) : Option Lexer :=
  if lexer.key?.any PossibleKey.required then none else some { lexer with key? := none }

/-- Holds what starts here as a possible key, if one may start here. -/
def holdKey? (lexer : Lexer) : Option Lexer :=
  if !lexer.keyAllowed then some lexer
  else
    let required := !lexer.isFlow && lexer.columns.head? = some lexer.place.column
    lexer.dropKey?.map fun lexer =>
      { lexer with key? := some ⟨required, lexer.tokens.size, lexer.place⟩ }

/-- The place of the next token after blanks, comments and ends of lines, and whether a key may
start there. Outside of brackets a tab does not stand where a key may start. -/
def nextPlace (flow keyAllowed comment : Bool) (line column offset : Nat) :
    List Char → Bool × Place
  | [] => (keyAllowed, ⟨line, column, offset, []⟩)
  | char :: rest =>
    if isBreak char then nextPlace flow (keyAllowed || !flow) false (line + 1) 0 0 rest
    else if comment || char = '#' || char = ' ' || (char = '\t' && (flow || !keyAllowed)) ||
        (char.toNat = 0xfeff && column = 0) then
      nextPlace flow keyAllowed (comment || char = '#') line (column + 1) (offset + char.utf8Size)
        rest
    else (keyAllowed, ⟨line, column, offset, char :: rest⟩)

/-- Goes to the next token, and ends the blocks that end in front of it. -/
def toNext (lexer : Lexer) : Lexer :=
  let (keyAllowed, place) := nextPlace lexer.isFlow lexer.keyAllowed false lexer.place.line
    lexer.place.column lexer.place.offset lexer.rest
  { lexer with keyAllowed, place }.endBlocks (some place.column)

/-- Reads what is said about the document after a percent sign, up to the end of the line. -/
def directive? (lexer : Lexer) : Option Lexer := do
  let lexer ← (lexer.endBlocks none).dropKey?
  let name := (lexer.rest.drop 1).takeWhile isNameChar
  let after := lexer.rest.drop (name.length + 1)
  if !startsBlank after then none
  let text := after.dropWhile isBlank
  let (token, left) ← match String.ofList name with
    | "YAML" => version? text
    | "TAG" => (TagHandle.read? lexer.bound text).map fun (handle, left) => (.handle handle, left)
    | _ => none
  let place := (lexer.place.past [] left).passWhile isBlank
  let place :=
    if place.rest.head? = some '#' then place.passWhile fun char => !isBreak char else place
  if !startsBreak place.rest then none
  some { (lexer.add token).allow false with place := place.passBreak }
where
  /-- Reads a number of at most nine digits. -/
  number? (text : List Char) : Option (Nat × List Char) :=
    let digits := text.takeWhile Char.isDigit
    if digits.isEmpty || 9 < digits.length then none
    else (Text.digits? 10 0 digits).map fun value => (value, text.drop digits.length)
  /-- Reads two numbers with a point between them. -/
  version? (text : List Char) : Option (Token × List Char) := do
    match ← number? text with
    | (major, '.' :: text) =>
      (number? text).map fun (minor, left) => (.version major minor, left)
    | _ => none

/-- Reads a mark that starts or ends a document. -/
def mark? (token : Token) (lexer : Lexer) : Option Lexer :=
  (lexer.endBlocks none).dropKey?.map fun lexer => ((lexer.pass 3).add token).allow false

/-- Reads an opening bracket or brace. -/
def open? (token : Token) (lexer : Lexer) : Option Lexer :=
  lexer.holdKey?.map fun lexer =>
    ((({ lexer with key? := none, outer := lexer.key? :: lexer.outer }).pass 1).add token).allow
      true

/-- Reads a closing bracket or brace. -/
def close? (token : Token) (lexer : Lexer) : Option Lexer :=
  lexer.dropKey?.map fun lexer =>
    let lexer := ((lexer.pass 1).add token).allow false
    match lexer.outer with
    | [] => lexer
    | key? :: outer => { lexer with key?, outer }

/-- Reads a comma. -/
def comma? (lexer : Lexer) : Option Lexer :=
  lexer.dropKey?.map fun lexer => ((lexer.pass 1).add .comma).allow true

/-- Starts a block for a sign that may start one here, if it does not stand between brackets. -/
def signBlock? (token : Token) (lexer : Lexer) : Option Lexer :=
  if lexer.isFlow then some lexer
  else if !lexer.keyAllowed then none
  else some (lexer.startBlock lexer.place.column lexer.tokens.size token)

/-- Reads the hyphen in front of an item. -/
def dash? (lexer : Lexer) : Option Lexer := do
  let lexer ← (← lexer.signBlock? .items).dropKey?
  some (((lexer.pass 1).add .dash).allow true)

/-- Reads the question mark in front of a key. -/
def keySign? (lexer : Lexer) : Option Lexer := do
  let lexer ← (← lexer.signBlock? .entries).dropKey?
  some (((lexer.pass 1).add .key).allow !lexer.isFlow)

/-- Reads the colon in front of a value, which makes a key of the possible key. -/
def colon? (lexer : Lexer) : Option Lexer :=
  match lexer.key?.filter fun key => !key.isStale lexer.place with
  | some key =>
    let lexer := (lexer.insert key.index .key).startBlock key.place.column key.index .entries
    some ((({ lexer with key? := none }.pass 1).add .colon).allow false)
  | none => do
    let lexer ← (← lexer.dropKey?).signBlock? .entries
    some (((lexer.pass 1).add .colon).allow !lexer.isFlow)

/-- Reads a name after its sign. -/
def name? (token : String → Token) (lexer : Lexer) : Option Lexer := do
  let lexer ← lexer.holdKey?
  let (name, _) ← anchorName? (lexer.rest.drop 1)
  some (((lexer.pass (name.length + 1)).add (token name)).allow false)

/-- Reads a tag. A blank or, between brackets, a comma has to come after it. -/
def tag? (lexer : Lexer) : Option Lexer := do
  let lexer ← lexer.holdKey?
  let word := (lexer.rest.drop 1).takeWhile fun char => !isBlank char && !isBreak char
  let (tag, left) ← WrittenTag.read? (word.length + 1) word
  if !left.isEmpty && !(lexer.isFlow && left.head? = some ',') then none
  some (((lexer.pass (word.length + 1 - left.length)).add (.tag tag)).allow false)

/-- Reads a block of lines. -/
def block? (folded : Bool) (lexer : Lexer) : Option Lexer := do
  let lexer ← lexer.dropKey?
  let (text, place) ← Yaml.block? folded lexer.columns.head? lexer.bound (lexer.place.pass 1)
  let style := if folded then Style.other else .literal
  some { (lexer.add (.scalar style (String.ofList text))).allow true with place }

/-- Reads a scalar between quotes. -/
def quoted? (unit? : List Char → Option QuotedUnit) (lexer : Lexer) : Option Lexer := do
  let lexer ← lexer.holdKey?
  let (text, place) ← Yaml.quoted? unit? lexer.bound [] (lexer.place.pass 1)
  some { (lexer.add (.scalar .other (String.ofList text))).allow false with place }

/-- Reads a scalar without quotes. A key may start after it when it leaves its line. -/
def plain? (lexer : Lexer) : Option Lexer := do
  let lexer ← lexer.holdKey?
  let indent := (lexer.columns.head?.map (· + 1)).getD 0
  let plain ← Yaml.plain? lexer.isFlow indent lexer.bound [] ⟨[], [], lexer.place⟩
  some { (lexer.add (.scalar .plain (String.ofList plain.text))).allow plain.leavesLine with
    place := plain.after }

/-- Reads the token that starts with a character, given what is after it. -/
def token? (char : Char) (after : List Char) (lexer : Lexer) : Option Lexer :=
  let isSign := lexer.isFlow || startsBlank after
  if lexer.place.column = 0 && char = '%' then lexer.directive?
  else if lexer.place.isAtMark '-' then lexer.mark? .documentStart
  else if lexer.place.isAtMark '.' then lexer.mark? .documentEnd
  else if char = '[' then lexer.open? .openBracket
  else if char = '\x7b' then lexer.open? .openBrace
  else if char = ']' then lexer.close? .closeBracket
  else if char = '\x7d' then lexer.close? .closeBrace
  else if char = ',' then lexer.comma?
  else if char = '-' && startsBlank after then lexer.dash?
  else if char = '?' && isSign then lexer.keySign?
  else if char = ':' && isSign then lexer.colon?
  else if char = '*' then lexer.name? .alias
  else if char = '&' then lexer.name? .anchor
  else if char = '!' then lexer.tag?
  else if char = '|' && !lexer.isFlow then lexer.block? false
  else if char = '>' && !lexer.isFlow then lexer.block? true
  else if char = '\'' then lexer.quoted? QuotedUnit.single?
  else if char = '"' then lexer.quoted? QuotedUnit.double?
  else if startsPlain lexer.isFlow (char :: after) then lexer.plain?
  else none

/-- The tokens at the end of the text. -/
def finish? (lexer : Lexer) : Option (List Token) :=
  (lexer.endBlocks none).dropKey?.map fun lexer => lexer.tokens.toList

/-- Reads all tokens. The number of steps is bounded. -/
def run? : Nat → Lexer → Option (List Token)
  | 0, _ => none
  | fuel + 1, lexer =>
    let lexer := lexer.toNext
    match lexer.rest with
    | [] => lexer.finish?
    | char :: after =>
      match lexer.token? char after with
      | none => none
      | some lexer => run? fuel lexer

/-- A block that goes on at a column is not ended there. -/
theorem endBlocks_of_head? {column : Nat} {lexer : Lexer}
    (h : lexer.columns.head? = some column) : lexer.endBlocks (some column) = lexer := by
  obtain ⟨tail, htail⟩ := List.head?_eq_some_iff.1 h
  cases lexer
  simp_all [endBlocks]

end Lexer

/-- The tokens of a text. -/
def Token.ofText? (text : List Char) : Option (List Token) :=
  (Lexer.start text).run? (text.length + 2)

end DataSquare.Yaml

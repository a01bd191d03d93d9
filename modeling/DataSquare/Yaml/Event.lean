import DataSquare.Yaml.Token

/-!
# Events of a document

The values of a document in the order in which they start, where a list or a mapping ends with an
event of its own. They are read from the tokens with the parts that are still to be read, the
innermost first. A text holds one document. Main statement: an item that is not there is empty.
-/
namespace DataSquare.Yaml

/-- What stands in front of a value. -/
structure Properties where
  /-- Its name. -/
  name? : Option String
  /-- Its tag. -/
  tag? : Option String
deriving DecidableEq, Repr

/-- Whether nothing stands in front of a value. -/
def Properties.isNone (properties : Properties) : Bool :=
  properties.name?.isNone && properties.tag?.isNone

/-- What starts or ends in a document. -/
inductive Event where
  /-- A value under its name. -/
  | alias (name : String)
  /-- A scalar. -/
  | scalar (properties : Properties) (style : Style) (text : String)
  /-- The start of a list or of a mapping. -/
  | start (properties : Properties) (mapping : Bool)
  /-- The end of a list or of a mapping. -/
  | stop
deriving DecidableEq, Repr

namespace Event

/-- The scalar that stands for nothing at all. -/
def empty : Event := .scalar ⟨none, none⟩ .plain ""

/-- What is to be read of a document. -/
inductive Part where
  /-- An item of a list by indentation, or its end. -/
  | item
  /-- An item of a list in a block of its mapping, or its end. -/
  | looseItem
  /-- A key of a mapping by indentation, or its end. -/
  | key
  /-- The value for such a key. -/
  | value
  /-- An item between brackets, the first one or a later one, or their end. -/
  | flowItem (first : Bool)
  /-- The key of a pair between brackets. -/
  | pairKey
  /-- The value of such a pair. -/
  | pairValue
  /-- The end of such a pair. -/
  | pairEnd
  /-- A key between braces, the first one or a later one, or their end. -/
  | flowKey (first : Bool)
  /-- The value for such a key. -/
  | flowValue
  /-- The missing value for such a key. -/
  | flowNothing
deriving DecidableEq, Repr

/-- How far events are read. -/
structure Progress where
  /-- The events so far, last first. -/
  events : List Event
  /-- What is to be read, the innermost first. -/
  parts : List Part
  /-- The tokens that are left. -/
  tokens : List Token
deriving DecidableEq, Repr

namespace Progress

/-- Progress by an event. -/
def add (event : Event) (parts : List Part) (tokens : List Token) (progress : Progress) :
    Progress :=
  ⟨event :: progress.events, parts, tokens⟩

/-- Reads the name and the tag in front of a value, in either order. -/
def properties? (handles : List TagHandle) : List Token → Option (Properties × List Token)
  | .anchor name :: .tag tag :: rest =>
    (tag.resolve? handles).map fun tag => (⟨some name, some tag⟩, rest)
  | .anchor name :: rest => some (⟨some name, none⟩, rest)
  | .tag tag :: .anchor name :: rest =>
    (tag.resolve? handles).map fun tag => (⟨some name, some tag⟩, rest)
  | .tag tag :: rest => (tag.resolve? handles).map fun tag => (⟨none, some tag⟩, rest)
  | rest => some (⟨none, none⟩, rest)

/-- The event of a scalar, of which a lone exclamation mark is no tag. -/
def scalarEvent (properties : Properties) (style : Style) (text : String) : Event :=
  let tag? := properties.tag?.filter (· ≠ "!")
  .scalar { properties with tag? } style text

/-- Reads the start of a value. Whether it may be a block, or a list in a block of its mapping, is
given with what is to be read after it. -/
def value? (handles : List TagHandle) (block loose : Bool) (parts : List Part)
    (tokens : List Token) (progress : Progress) : Option Progress :=
  match tokens with
  | .alias name :: rest => some (progress.add (.alias name) parts rest)
  | tokens => do
    let (properties, tokens) ← properties? handles tokens
    let list := Event.start properties false
    let mapping := Event.start properties true
    match tokens, block, loose with
    | .dash :: _, _, true => some (progress.add list (.looseItem :: parts) tokens)
    | .scalar style text :: rest, _, _ =>
      some (progress.add (scalarEvent properties style text) parts rest)
    | .openBracket :: rest, _, _ => some (progress.add list (.flowItem true :: parts) rest)
    | .openBrace :: rest, _, _ => some (progress.add mapping (.flowKey true :: parts) rest)
    | .items :: rest, true, _ => some (progress.add list (.item :: parts) rest)
    | .entries :: rest, true, _ => some (progress.add mapping (.key :: parts) rest)
    | tokens, _, _ =>
      if properties.isNone then none
      else some (progress.add (.scalar properties .plain "") parts tokens)

/-- Reads a value, or nothing at all where one of some tokens stands instead of it. -/
def valueUnless? (handles : List TagHandle) (block loose : Bool) (instead : List Token)
    (parts : List Part) (tokens : List Token) (progress : Progress) : Option Progress :=
  if tokens.head?.any fun token => instead.contains token then
    some (progress.add .empty parts tokens)
  else progress.value? handles block loose parts tokens

/-- Reads on in a list between brackets, after the comma in front of an item. -/
def flowItem? (handles : List TagHandle) (parts : List Part) (tokens : List Token)
    (progress : Progress) : Option Progress :=
  match tokens with
  | .closeBracket :: rest => some (progress.add .stop parts rest)
  | .key :: rest =>
    some (progress.add (.start ⟨none, none⟩ true) (.pairKey :: .flowItem false :: parts) rest)
  | tokens => progress.value? handles false false (.flowItem false :: parts) tokens

/-- Reads on in a mapping between braces, after the comma in front of a key. -/
def flowKey? (handles : List TagHandle) (parts : List Part) (tokens : List Token)
    (progress : Progress) : Option Progress :=
  match tokens with
  | .closeBrace :: rest => some (progress.add .stop parts rest)
  | .key :: rest =>
    progress.valueUnless? handles false false [.colon, .comma, .closeBrace] (.flowValue :: parts)
      rest
  | tokens => progress.value? handles false false (.flowNothing :: parts) tokens

/-- Reads a part of a document, given what is to be read after it. -/
def step? (handles : List TagHandle) (part : Part) (parts : List Part) (progress : Progress) :
    Option Progress :=
  match part, progress.tokens with
  | .item, .dash :: rest =>
    progress.valueUnless? handles true false [.dash, .blockEnd] (.item :: parts) rest
  | .item, .blockEnd :: rest => some (progress.add .stop parts rest)
  | .item, _ => none
  | .looseItem, .dash :: rest =>
    progress.valueUnless? handles true false [.dash, .key, .colon, .blockEnd]
      (.looseItem :: parts) rest
  | .looseItem, tokens => some (progress.add .stop parts tokens)
  | .key, .key :: rest =>
    progress.valueUnless? handles true true [.key, .colon, .blockEnd] (.value :: parts) rest
  | .key, .blockEnd :: rest => some (progress.add .stop parts rest)
  | .key, _ => none
  | .value, .colon :: rest =>
    progress.valueUnless? handles true true [.key, .colon, .blockEnd] (.key :: parts) rest
  | .value, tokens => some (progress.add .empty (.key :: parts) tokens)
  | .flowItem true, tokens => progress.flowItem? handles parts tokens
  | .flowItem false, .comma :: rest => progress.flowItem? handles parts rest
  | .flowItem false, .closeBracket :: rest => some (progress.add .stop parts rest)
  | .flowItem false, _ => none
  | .pairKey, .colon :: rest => some (progress.add .empty (.pairValue :: parts) rest)
  | .pairKey, .comma :: rest => some (progress.add .empty (.pairValue :: parts) rest)
  | .pairKey, .closeBracket :: rest => some (progress.add .empty (.pairValue :: parts) rest)
  | .pairKey, tokens => progress.value? handles false false (.pairValue :: parts) tokens
  | .pairValue, .colon :: rest =>
    progress.valueUnless? handles false false [.comma, .closeBracket] (.pairEnd :: parts) rest
  | .pairValue, tokens => some (progress.add .empty (.pairEnd :: parts) tokens)
  | .pairEnd, tokens => some (progress.add .stop parts tokens)
  | .flowKey true, tokens => progress.flowKey? handles parts tokens
  | .flowKey false, .comma :: rest => progress.flowKey? handles parts rest
  | .flowKey false, .closeBrace :: rest => some (progress.add .stop parts rest)
  | .flowKey false, _ => none
  | .flowValue, .colon :: rest =>
    progress.valueUnless? handles false false [.comma, .closeBrace] (.flowKey false :: parts) rest
  | .flowValue, tokens => some (progress.add .empty (.flowKey false :: parts) tokens)
  | .flowNothing, tokens => some (progress.add .empty (.flowKey false :: parts) tokens)

/-- Reads all parts. The number of steps is bounded. -/
def run? (handles : List TagHandle) : Nat → Progress → Option Progress
  | 0, _ => none
  | fuel + 1, progress =>
    match progress.parts with
    | [] => some progress
    | part :: parts =>
      match progress.step? handles part parts with
      | none => none
      | some progress => run? handles fuel progress

/-- An item that is not there is empty. -/
theorem step?_item_dash (handles : List TagHandle) (parts : List Part) (events : List Event)
    (rest : List Token) :
    step? handles .item parts ⟨events, .item :: parts, .dash :: .dash :: rest⟩ =
      some ⟨.empty :: events, .item :: parts, .dash :: rest⟩ := by
  simp [step?, valueUnless?, add]

end Progress

/-- What is said about a document in front of it: whether its version is, and its handles. -/
structure Preamble where
  /-- Whether its version is given. -/
  versioned : Bool
  /-- Its handles. -/
  handles : List TagHandle
deriving DecidableEq, Repr

namespace Preamble

/-- Reads what is said about a document. Nothing is said twice, and only the versions 1.1 and 1.2
are known. -/
def read? (preamble : Preamble) : List Token → Option (Preamble × List Token)
  | .version major minor :: rest =>
    if preamble.versioned || major ≠ 1 || (minor ≠ 1 && minor ≠ 2) then none
    else read? { preamble with versioned := true } rest
  | .handle handle :: rest =>
    if preamble.handles.any fun other => other.handle = handle.handle then none
    else read? { preamble with handles := preamble.handles ++ [handle] } rest
  | rest => some (preamble, rest)

/-- Whether something is said about a document. -/
def isEmpty (preamble : Preamble) : Bool := !preamble.versioned && preamble.handles.isEmpty

end Preamble

/-- Whether a token cannot start a value of a document that has been started. -/
def endsDocument : Token → Bool
  | .version _ _ => true
  | .handle _ => true
  | .documentStart => true
  | .documentEnd => true
  | _ => false

/-- The events of the only document of some tokens. -/
def ofTokens? (tokens : List Token) : Option (List Event) := do
  let (preamble, tokens) ← Preamble.read? ⟨false, []⟩ tokens
  let before : Progress := ⟨[], [], tokens⟩
  let first ← match tokens with
    | .documentStart :: rest =>
      if rest.head?.all endsDocument then some (before.add .empty [] rest)
      else before.value? preamble.handles true false [] rest
    | [] => if preamble.isEmpty then some before else none
    | tokens =>
      if preamble.isEmpty then before.value? preamble.handles true false [] tokens else none
  let last ← first.run? preamble.handles (8 * tokens.length + 8)
  if last.tokens.all fun token => token = .documentEnd then some last.events.reverse else none

end Event

end DataSquare.Yaml

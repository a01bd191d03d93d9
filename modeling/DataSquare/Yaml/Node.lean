import DataSquare.Yaml.Event
import DataSquare.Yaml.Token.Lexer
import DataSquare.Yaml.Value

/-!
# Documents and their values

A document is read from its characters by way of its tokens and its events. Controls do not occur in
it, and one text holds one document.

A value may have a name, under which it occurs again. A name gets the number of different names in
front of it, and a number stands for the last value that gets it, wherever it occurs. The values of
a document are built from its events with the lists and mappings that are open, the innermost first.
Main statement: a scalar by itself is a document of that scalar.
-/
namespace DataSquare.Yaml

/-- What the numbers of names stand for. -/
structure Shared where
  /-- The values that have names, by their order. -/
  values : List (Nat × Yaml)
  /-- The order of the last value of each number, latest first. -/
  orders : List (Nat × Nat)

/-- The value of a number. -/
def Shared.value? (shared : Shared) (number : Nat) : Option Yaml :=
  (shared.orders.lookup number).bind fun order => shared.values.lookup order

/-- A value in its document. -/
structure Node where
  /-- What the numbers of names stand for. -/
  shared : Shared
  /-- The value, which is no number of a name. -/
  value : Yaml

namespace Node

/-- A value of a document, where the number of a name is the value that it stands for. -/
def ofValue (shared : Shared) (value : Yaml) : Node :=
  match value with
  | .shared number => ⟨shared, (shared.value? number).getD value⟩
  | value => ⟨shared, value⟩

/-- The text of a scalar. -/
def text? (node : Node) : Option String := node.value.text?

/-- The keys and values of a mapping. Nothing at all is a mapping without keys. -/
def entries? (node : Node) : Option (List (Node × Node)) :=
  match node.value with
  | .mapping _ entries =>
    some (entries.map fun (key, value) => (ofValue node.shared key, ofValue node.shared value))
  | value => if value.isEmpty then some [] else none

end Node

/-- A list or mapping that is open. -/
structure OpenValue where
  /-- Its tag. -/
  tag? : Option String
  /-- Its order among the values that have names, if it has one. -/
  order? : Option Nat
  /-- Whether it is a mapping. -/
  isMapping : Bool
  /-- The values in it, last first. -/
  values : List Yaml

/-- Values that are keys and values in turn. -/
def pairs : List Yaml → List (Yaml × Yaml)
  | key :: value :: rest => (key, value) :: pairs rest
  | _ => []

/-- Keys and values in turn are the entries that they come from. -/
theorem pairs_flatMap (entries : List (Yaml × Yaml)) :
    pairs (entries.flatMap fun (key, value) => [key, value]) = entries := by
  induction entries with
  | nil => rfl
  | cons entry rest ih => simp [pairs, ih]

/-- The value of a list or mapping that is complete. -/
def OpenValue.close (value : OpenValue) : Yaml :=
  if value.isMapping then .mapping value.tag? (pairs value.values.reverse)
  else .sequence value.tag? value.values.reverse

/-- How far values are built. -/
structure Builder where
  /-- The value of the document, if it is complete. -/
  root? : Option Yaml
  /-- The lists and mappings that are open, the innermost first. -/
  opened : List OpenValue
  /-- The names with their numbers. -/
  names : List (String × Nat)
  /-- The number of values that have names. -/
  count : Nat
  /-- What the numbers stand for. -/
  shared : Shared

namespace Builder

/-- Nothing is built. -/
def fresh : Builder := ⟨none, [], [], 0, ⟨[], []⟩⟩

/-- Gives a name to the next value, and returns its order. -/
def name (name? : Option String) (builder : Builder) : Option Nat × Builder :=
  match name? with
  | none => (none, builder)
  | some name =>
    let number := builder.names.length
    let others := builder.names.filter fun (other, _) => other ≠ name
    (some builder.count, { builder with
      names := (name, number) :: others
      count := builder.count + 1
      shared := { builder.shared with
        orders := (number, builder.count) :: builder.shared.orders } })

/-- Adds a value that is complete, with its order among those that have names. -/
def add (order? : Option Nat) (value : Yaml) (builder : Builder) : Builder :=
  let shared :=
    match order? with
    | none => builder.shared
    | some order => { builder.shared with values := (order, value) :: builder.shared.values }
  match builder.opened with
  | [] => { builder with root? := some value, shared }
  | parent :: outer =>
    { builder with opened := { parent with values := value :: parent.values } :: outer, shared }

/-- Builds on with an event. -/
def step? (builder : Builder) : Event → Option Builder
  | .alias name => (builder.names.lookup name).map fun number => builder.add none (.shared number)
  | .scalar properties style text =>
    let (order?, builder) := builder.name properties.name?
    some (builder.add order? (.scalar properties.tag? style text))
  | .start properties isMapping =>
    let (order?, builder) := builder.name properties.name?
    some { builder with opened := ⟨properties.tag?, order?, isMapping, []⟩ :: builder.opened }
  | .stop =>
    match builder.opened with
    | [] => none
    | value :: outer => some ({ builder with opened := outer }.add value.order? value.close)

end Builder

/-- The value of a document with some events. No events are the document of nothing at all. -/
def Node.ofEvents? (events : List Event) : Option Node := do
  let builder ← events.foldlM Builder.step? Builder.fresh
  some (.ofValue builder.shared (builder.root?.getD empty))

/-- A scalar by itself is a document of that scalar. -/
theorem Node.ofEvents?_scalar (style : Style) (text : String) :
    Node.ofEvents? [.scalar ⟨none, none⟩ style text] =
      some ⟨⟨[], []⟩, .scalar none style text⟩ := rfl

/-- Whether a character may occur in a document. -/
def isAllowed (char : Char) : Bool :=
  char = '\t' || char = '\n' || char = '\r' || (0x20 ≤ char.toNat && char.toNat ≤ 0x7e) ||
    char.toNat = 0x85 || (0xa0 ≤ char.toNat && char.toNat ≤ 0xfffd) || 0x10000 ≤ char.toNat

/-- The value of the only document of a text. -/
def ofText? (text : String) : Option Node := do
  let text := text.toList
  if !text.all isAllowed then none
  let tokens ← Token.ofText? (unifyBreaks [] text)
  Node.ofEvents? (← Event.ofTokens? tokens)

/-- The value of the only document that bytes write. -/
def ofBytes? (bytes : Bytes) : Option Node := (Text.ofUtf8 bytes).toOption.bind ofText?

/-- A text without tokens is the document of nothing at all. -/
theorem ofText?_empty : ofText? "" = some ⟨⟨[], []⟩, empty⟩ := by
  simp [ofText?, Token.ofText?, unifyBreaks, Lexer.start, Lexer.run?, Lexer.toNext,
    Lexer.nextPlace, Lexer.rest, Place.start, Lexer.endBlocks, Lexer.isFlow, Lexer.finish?,
    Lexer.dropKey?, Event.ofTokens?, Event.Preamble.read?, Event.Preamble.isEmpty,
    Event.Progress.run?, Node.ofEvents?, Builder.fresh, Node.ofValue, empty]

end DataSquare.Yaml

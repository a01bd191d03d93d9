import DataSquare.Consensus
import DataSquare.Log.Settings
import DataSquare.Yaml.Node

/-!
# Settings

An operator writes settings in a YAML document with a section for the consensus parameters and one
for the log. A missing section has its default, a section that is there is complete, and what is
not known is ignored. A choice with details is written as a tag in front of them.
-/
namespace DataSquare

/-- Why there are no settings. -/
inductive SettingsError where
  /-- The file is not there. -/
  | io
  /-- The text is no document that describes settings. -/
  | yaml
deriving DecidableEq, Repr

/-- What an operator configures. -/
structure Settings where
  /-- The consensus parameters. -/
  consensus : ConsensusSettings
  /-- The log. -/
  log : Log.LogSettings
deriving DecidableEq

namespace Settings

/-- A section of a document: its keys with their values. -/
abbrev Section := List (Yaml.Node × Yaml.Node)

/-- The section that a value is, all of whose keys are texts and none of whose known keys is
written twice. -/
def section? (known : List String) (node : Yaml.Node) : Option Section := do
  let entries ← node.entries?
  let keys ← entries.mapM fun (key, _) => key.text?
  if known.any fun name => 1 < keys.count name then none else some entries

/-- The value of a key, if it is there. -/
def find? (entries : Section) (name : String) : Option Yaml.Node :=
  (entries.find? fun (key, _) => key.text? == some name).map Prod.snd

/-- The value of a key as it is read, or a default when the key is missing. -/
def findD {α : Type} (entries : Section) (name : String) (missing : α)
    (read : Yaml.Node → Option α) : Option α :=
  match find? entries name with
  | none => some missing
  | some node => read node

/-- The word that a tag of the document itself is. -/
def tagWord? (node : Yaml.Node) : Option String :=
  node.value.tag?.bind fun tag =>
    match tag.toList with
    | '!' :: first :: rest => some (String.ofList (first :: rest))
    | _ => none

/-- The word of a choice without details. The tag of nothing at all is such a word too. -/
def choice? (node : Yaml.Node) : Option String :=
  match tagWord? node with
  | none => node.text?
  | some word => if node.value.isNull then some word else none

/-- Whether a value gives the details of a choice. -/
def isDetailed (word : String) (node : Yaml.Node) : Bool := tagWord? node == some word

/-- The version of the protocol that a value names. -/
def appVersion? (node : Yaml.Node) : Option AppVersion :=
  match choice? node with
  | some "v1" => some .v1
  | some "v3" => some .v3
  | _ => none

/-- The section for the consensus parameters. -/
def consensus? (node : Yaml.Node) : Option ConsensusSettings := do
  let entries ← section? ["app_version", "min_square_size", "max_square_size"] node
  some ⟨← (← find? entries "app_version") |> appVersion?,
    ← (← find? entries "min_square_size").value.nat?,
    ← (← find? entries "max_square_size").value.nat?⟩

/-- A text that may be missing. -/
def optionalText? (node : Yaml.Node) : Option (Option String) := do
  if ← node.value.isPresent? then node.text?.map some else some none

/-- The details of a log that goes to files. -/
def file? (node : Yaml.Node) : Option Log.FileSettings := do
  let entries ← section? ["directory", "prefix", "json"] node
  some ⟨← (← find? entries "directory").text?, ← findD entries "prefix" none optionalText?,
    ← findD entries "json" false fun node => node.value.bool?⟩

/-- Where the log goes. -/
def logger? (node : Yaml.Node) : Option Log.Logger :=
  if isDetailed "File" node then (file? node).map .file
  else
    match choice? node with
    | some "Stdout" => some .stdout
    | some "Stderr" => some .stderr
    | some "None" => some .nowhere
    | _ => none

/-- The table of thresholds by target. -/
def rows? (node : Yaml.Node) : Option Log.FilterSettings := do
  let entries ← node.entries?
  let rows ← entries.mapM fun (target, threshold) => do
    some (← target.text?, ← threshold.text?)
  some (.ofRows rows)

/-- The filter of the log, if there is to be one. -/
def filter? (node : Yaml.Node) : Option (Option Log.FilterSettings) :=
  if isDetailed "EnvFilter" node then do
    let entries ← section? ["filters"] node
    (rows? (← find? entries "filters")).map some
  else if choice? node = some "None" then some none
  else none

/-- The section for the log. -/
def log? (node : Yaml.Node) : Option Log.LogSettings := do
  let entries ← section? ["logger", "filter", "level"] node
  some ⟨← (← find? entries "logger") |> logger?, ← (← find? entries "filter") |> filter?,
    ← Log.Level.ofText? (← (← find? entries "level").text?)⟩

/-- The settings that a document describes. -/
def ofDocument? (document : Yaml.Node) : Option Settings := do
  let entries ← section? ["consensus", "tracing"] document
  some ⟨← findD entries "consensus" .default consensus?, ← findD entries "tracing" .default log?⟩

/-- The settings that a text writes. -/
def ofText (text : String) : Except SettingsError Settings :=
  match (Yaml.ofText? text).bind ofDocument? with
  | some settings => .ok settings
  | none => .error .yaml

/-- The settings in a file, whose content is given if it is there. -/
def ofFile (content? : Option Bytes) : Except SettingsError Settings :=
  match content? with
  | none => .error .io
  | some content =>
    match (Yaml.ofBytes? content).bind ofDocument? with
    | some settings => .ok settings
    | none => .error .yaml

end Settings

end DataSquare

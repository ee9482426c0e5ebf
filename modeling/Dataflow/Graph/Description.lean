import Dataflow.Graph.Basic
import Dataflow.Json.Record
import Dataflow.Value.Json

/-!
# Graph descriptions

The JSON form of a graph.  Ids are texts or integers, and a connection is written nested, as
`from` and `to`, or flat, as four members.  What a description must have is optional while it
is read, so that what is missing can be named: first the text is read as a whole, then its
entries become nodes and connections, and then the graph is checked.
-/

namespace Dataflow

/-! ## Entries as they are written -/

/-- An input as it is written. -/
structure InputEntry where
  name : Option String
  default : Option Value
  type : Option String

/-- An output as it is written. -/
structure OutputEntry where
  name : Option String
  type : Option String

/-- A node as it is written. -/
structure NodeEntry where
  id : Option String
  name : Option String
  inputs : List InputEntry
  outputs : Option (List OutputEntry)
  source : Option String
  module : Option String
  docstring : Option String

/-- One end of a nested connection as it is written. -/
structure EndEntry where
  node : Option String
  output : Option String
  input : Option String

/-- A connection as it is written, in either form. -/
structure ConnectionEntry where
  fromNode : Option String
  fromOutput : Option String
  toNode : Option String
  toInput : Option String
deriving DecidableEq

/-- A description as it is written. -/
structure Description where
  nodes : Option (List NodeEntry)
  connections : List ConnectionEntry

/-! ## Reading entries -/

/-- An id: a text, or an integer of 64 bits by its decimal text. -/
def idOf? : Json → Option String
  | .text s => some s
  | .int n => if Value.fitsInt n then some (String.ofList (Decimal.intChars n)) else none
  | _ => none

/-- A field that stands under one name and has to be there in an array. -/
def field (name : String) : Json.Field := ⟨[name], false⟩

/-- A field that may be missing at the end of an array. -/
def trailing (name : String) : Json.Field := ⟨[name], true⟩

namespace InputEntry

/-- The levels that are left for a default: it stands five levels deep. -/
def defaultDepth : Nat := Json.maxDepth - 5

/-- A default; `null` stands for none. -/
def defaultOf? (j : Json) : Option Value :=
  if j.isReadable defaultDepth then some (.ofJson j) else none

/-- The input that a tree describes. -/
def ofJson? (j : Json) : Option InputEntry := do
  match ← j.fields? [field "name", trailing "default", field "type"] with
  | [name, default, type] =>
    return {
      name := ← Json.optional? Json.text? name
      default := ← Json.optional? defaultOf? default
      type := ← Json.optional? Json.text? type }
  | _ => none

end InputEntry

/-- The output that a tree describes. -/
def OutputEntry.ofJson? (j : Json) : Option OutputEntry := do
  match ← j.fields? [field "name", field "type"] with
  | [name, type] =>
    return { name := ← Json.optional? Json.text? name, type := ← Json.optional? Json.text? type }
  | _ => none

/-- The node that a tree describes. -/
def NodeEntry.ofJson? (j : Json) : Option NodeEntry := do
  match ← j.fields? [field "id", field "name", trailing "inputs", field "outputs",
    field "source", field "module", field "docstring"] with
  | [id, name, inputs, outputs, source, module, docstring] =>
    return {
      id := ← Json.optional? idOf? id
      name := ← Json.optional? Json.text? name
      inputs := ← Json.listOrEmpty? InputEntry.ofJson? inputs
      outputs := ← Json.optional? (fun j => Json.listOrEmpty? OutputEntry.ofJson? (some j)) outputs
      source := ← Json.optional? Json.text? source
      module := ← Json.optional? Json.text? module
      docstring := ← Json.optional? Json.text? docstring }
  | _ => none

/-- The end of a nested connection that a tree describes. -/
def EndEntry.ofJson? (j : Json) : Option EndEntry := do
  match ← j.fields? [field "node", field "output", field "input"] with
  | [node, output, input] =>
    return {
      node := ← Json.optional? idOf? node
      output := ← Json.optional? Json.text? output
      input := ← Json.optional? Json.text? input }
  | _ => none

namespace ConnectionEntry

/-- The levels that are left for a connection: it stands two levels deep. -/
def depth : Nat := Json.maxDepth - 2

/-- A connection in nested form: an object with both ends. -/
def nested? (members : List (String × Json)) : Option ConnectionEntry := do
  match ← Json.member? members (field "from"), ← Json.member? members (field "to") with
  | some start, some target =>
    let start ← EndEntry.ofJson? start
    let target ← EndEntry.ofJson? target
    return ⟨start.node, start.output, target.node, target.input⟩
  | _, _ => none

/-- A connection in flat form, each member in either of two spellings. -/
def flat? (members : List (String × Json)) : Option ConnectionEntry := do
  return {
    fromNode := ← Json.optional? idOf? (← Json.member? members ⟨["from_node", "fromNode"], false⟩)
    fromOutput := ← Json.optional? Json.text?
      (← Json.member? members ⟨["from_output", "fromOutput"], false⟩)
    toNode := ← Json.optional? idOf? (← Json.member? members ⟨["to_node", "toNode"], false⟩)
    toInput := ← Json.optional? Json.text?
      (← Json.member? members ⟨["to_input", "toInput"], false⟩) }

/-- The connection that a tree describes, in nested form if that fits. -/
def ofJson? (j : Json) : Option ConnectionEntry :=
  match j with
  | .object members =>
    if j.isReadable depth then nested? members <|> flat? members else none
  | _ => none

end ConnectionEntry

namespace Description

/-- The description that a tree gives. -/
def ofJson? (j : Json) : Option Description := do
  match ← j.fields? [field "nodes", trailing "connections"] with
  | [nodes, connections] =>
    return {
      nodes := ← Json.optional? (fun j => Json.listOrEmpty? NodeEntry.ofJson? (some j)) nodes
      connections := ← Json.listOrEmpty? ConnectionEntry.ofJson? connections }
  | _ => none

/-- The description that a text gives. -/
def ofText? (text : String) : Option Description := (Json.scan? text).bind ofJson?

end Description

/-! ## From entries to graphs -/

/-- The value of an optional part, or the fault that it is missing. -/
def required {α : Type} (fault : GraphFault) : Option α → Except GraphFault α
  | some a => .ok a
  | none => .error fault

/-- The input of an entry of the given node. -/
def InputEntry.input (node : String) (e : InputEntry) : Except GraphFault Input := do
  return ⟨← required (.unnamedInput node) e.name, e.default, e.type⟩

/-- The output of an entry of the given node. -/
def OutputEntry.output (node : String) (e : OutputEntry) : Except GraphFault Output := do
  return ⟨← required (.unnamedOutput node) e.name, e.type⟩

/-- The node of an entry.  A node without a name is named by its id. -/
def NodeEntry.node (position : Nat) (e : NodeEntry) : Except GraphFault Node := do
  let id ← required (.noId position) e.id
  let outputs ← required (.noOutputs id) e.outputs
  let inputs ← e.inputs.mapM (InputEntry.input id)
  let outputs ← outputs.mapM (OutputEntry.output id)
  return {
    id, inputs, outputs
    name := e.name.getD id
    source := e.source
    module := e.module.map modulePath
    docstring := e.docstring }

/-- The connection of an entry. -/
def ConnectionEntry.connection (position : Nat) (e : ConnectionEntry) :
    Except GraphFault Connection := do
  return {
    fromNode := ← required (.incomplete position .fromNode) e.fromNode
    fromOutput := ← required (.incomplete position .fromOutput) e.fromOutput
    toNode := ← required (.incomplete position .toNode) e.toNode
    toInput := ← required (.incomplete position .toInput) e.toInput }

/-- The nodes and connections of a description. -/
def Description.parts (d : Description) : Except GraphFault (List Node × List Connection) := do
  let entries ← required .noNodes d.nodes
  let nodes ← entries.zipIdx.mapM fun (e, position) => e.node position
  let connections ← d.connections.zipIdx.mapM fun (e, position) => e.connection position
  return (nodes, connections)

/-- The nodes and connections of a text. -/
def Description.partsOfText (text : String) : Except GraphFault (List Node × List Connection) := do
  (← required .unreadable (ofText? text)).parts

/-- The graph of a text. -/
def Graph.ofText (text : String) : Except GraphFault Graph := do
  let (nodes, connections) ← Description.partsOfText text
  Graph.ofParts nodes connections

end Dataflow

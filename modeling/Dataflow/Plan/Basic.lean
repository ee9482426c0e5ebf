import Dataflow.Schedule

/-!
# Execution plans

A plan lists the nodes of a graph in an order in which they can run, and says of each where
its arguments come from, how its function is found, which nodes wait for it, and for how many
edges it waits itself.  Running a plan and writing a program for it need nothing else.
-/

namespace Dataflow

/-- Where an argument comes from. -/
inductive Binding where
  /-- From an output of another node. -/
  | connected (node output : String)
  /-- From the default of the input. -/
  | literal (value : Value)
  /-- From nowhere: the input is neither connected nor has it a default. -/
  | missing
deriving BEq

/-- Whether an input got no binding. -/
def Binding.isMissing : Binding → Bool
  | missing => true
  | _ => false

/-- How the function of a node is found. -/
inductive BehaviorSource where
  /-- In the registry, under a key. -/
  | static (key : String)
  /-- In the text that the node brings along. -/
  | inline (source : String)
  /-- In the text that another node puts out. -/
  | upstream (node output : String)
  /-- In a module, under its qualified name. -/
  | external (module name : String)
deriving BEq, DecidableEq

/-- A node of a plan. -/
structure PlannedNode where
  id : String
  /-- The position in the declaration order of the graph. -/
  declared : Nat
  name : String
  outputs : List String
  arguments : List (String × Binding)
  behavior : BehaviorSource
  /-- The places in the plan of the nodes that wait for this one, one for each edge. -/
  successors : List Nat
  /-- The number of edges into this node. -/
  dependencyCount : Nat
deriving BEq

/-- The first input without a binding. -/
def PlannedNode.missingInput? (n : PlannedNode) : Option String :=
  (n.arguments.find? fun a => a.2.isMissing).map Prod.fst

/-- A plan. -/
structure Plan where
  nodes : List PlannedNode
deriving BEq

namespace Plan

/-- The ids in the order of the plan. -/
def order (p : Plan) : List String := p.nodes.map PlannedNode.id

/-- The number of nodes. -/
def size (p : Plan) : Nat := p.nodes.length

/-- The place of the first node with an id. -/
def position? (p : Plan) (id : String) : Option Nat := p.nodes.findIdx? fun n => n.id = id

/-- The place of the last node with an id. -/
def lastPosition? (p : Plan) (id : String) : Option Nat :=
  (p.nodes.zipIdx.filter fun n => n.1.id = id).getLast?.map Prod.snd

end Plan

/-! ## Planning -/

namespace Graph

variable (g : Graph)

/-- The binding of an input: a connection before a default. -/
def bindingOf (node : Node) (input : Input) : Binding :=
  match g.incoming? node.id input.name with
  | some c => .connected c.fromNode c.fromOutput
  | none =>
    match input.default with
    | some value => .literal value
    | none => .missing

/-- How the function of a node is found: a module before a text of its own, and that before a
text from another node; with none of them it is in the registry. -/
def behaviorOf (node : Node) : BehaviorSource :=
  match node.module, node.source, g.incoming? node.id behaviorInput with
  | some module, _, _ => .external module node.name
  | none, some source, _ => .inline source
  | none, none, some c => .upstream c.fromNode c.fromOutput
  | none, none, none => .static node.id

/-- The planned form of the node declared at a position, in the given order. -/
def planned (deps : Dependencies) (order : List Nat) (declared : Nat) (node : Node) :
    PlannedNode where
  id := node.id
  declared := declared
  name := node.name
  outputs := node.outputNames
  arguments := node.dataInputs.map fun input => (input.name, g.bindingOf node input)
  behavior := g.behaviorOf node
  successors := (deps.successors declared).map fun s => order.idxOf s
  dependencyCount := deps.inDegree declared

/-- The plan of a graph. -/
def plan : Except Cycle Plan := do
  let order ← g.topologicalOrder
  let deps := g.dependencies
  return ⟨order.filterMap fun v => g.nodes[v]?.map (g.planned deps order v)⟩

end Graph

end Dataflow

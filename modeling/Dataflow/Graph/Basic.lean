import Dataflow.Value.Basic

/-!
# Dataflow graphs

A graph is a list of nodes and a list of connections from outputs of nodes to inputs of nodes.
`Graph.ofParts` accepts two lists when the ids are distinct texts, every connection joins
declared nodes, and no input is connected twice; a value of type `Graph` carries the proof.
The declaration order of the nodes is part of the graph, because it breaks ties when the
nodes are scheduled.
-/

namespace Dataflow

/-- An input of a node.  The type is for people; values are not checked against it. -/
structure Input where
  name : String
  default : Option Value
  type : Option String

/-- An output of a node. -/
structure Output where
  name : String
  type : Option String
deriving DecidableEq

/-- A unit of computation. -/
structure Node where
  id : String
  /-- The name of the function that the node calls. -/
  name : String
  inputs : List Input
  outputs : List Output
  /-- The text of the function, if the node brings it along. -/
  source : Option String
  /-- The module that provides the function, if one does. -/
  module : Option String
  docstring : Option String

/-- An edge from an output of one node to an input of another. -/
structure Connection where
  fromNode : String
  fromOutput : String
  toNode : String
  toInput : String
deriving DecidableEq

/-- The input that stands for the function text of a node; it takes no data. -/
def behaviorInput : String := "source"

/-- The inputs that take data. -/
def Node.dataInputs (n : Node) : List Input := n.inputs.filter fun i => i.name != behaviorInput

/-- The names of the outputs. -/
def Node.outputNames (n : Node) : List String := n.outputs.map Output.name

namespace Connection

/-- Whether the connection supplies the function of its target rather than data. -/
def suppliesBehavior (c : Connection) : Bool := c.toInput == behaviorInput

/-- The input that the connection leads to. -/
def target (c : Connection) : String × String := (c.toNode, c.toInput)

/-- The connection as messages show it. -/
def arrow (c : Connection) : String :=
  c.fromNode ++ "." ++ c.fromOutput ++ " -> " ++ c.toNode ++ "." ++ c.toInput

end Connection

/-- The dotted name of a module: a path loses the ending `.py` and a leading `./`, and its
slashes become points. -/
def modulePath (path : String) : String :=
  let cs := path.toList
  let ending := ".py".toList
  let cs := if ending.isSuffixOf cs then cs.take (cs.length - ending.length) else cs
  let cs := match cs with
    | '.' :: '/' :: rest => rest
    | other => other
  String.ofList (cs.map fun c => if c = '/' then '.' else c)

/-! ## Faults -/

/-- The parts of a connection that a description has to give. -/
inductive Endpoint where
  | fromNode
  | fromOutput
  | toNode
  | toInput
deriving DecidableEq, Repr

/-- The name of a part of a connection. -/
def Endpoint.name : Endpoint → String
  | fromNode => "fromNode"
  | fromOutput => "fromOutput"
  | toNode => "toNode"
  | toInput => "toInput"

/-- What is wrong with a graph or with its description. -/
inductive GraphFault where
  /-- The text is no description. -/
  | unreadable
  | noNodes
  | noId (position : Nat)
  | noOutputs (node : String)
  | unnamedInput (node : String)
  | unnamedOutput (node : String)
  | incomplete (position : Nat) (part : Endpoint)
  | emptyId
  | repeatedId (node : String)
  | unknownNode (id : String) (connection : Connection)
  | inputTaken (connection : Connection)
deriving DecidableEq

namespace GraphFault

/-- The node that the fault is laid to. -/
def node? : GraphFault → Option String
  | noOutputs node | unnamedInput node | unnamedOutput node | repeatedId node => some node
  | unknownNode id _ => some id
  | inputTaken c => some c.toNode
  | unreadable | noNodes | noId _ | incomplete .. | emptyId => none

/-- The field of the description that is at fault. -/
def field : GraphFault → String
  | unreadable => "description"
  | noNodes => "nodes"
  | noId _ | emptyId | repeatedId _ => "id"
  | noOutputs _ => "outputs"
  | unnamedInput _ => "inputs[].name"
  | unnamedOutput _ => "outputs[].name"
  | incomplete _ part => part.name
  | unknownNode .. | inputTaken _ => "connections"

/-- The fault in words. -/
def reason : GraphFault → String
  | unreadable => "not a description"
  | noNodes => "description has no node list"
  | noId position => "node #" ++ toString position ++ " has no id"
  | noOutputs _ => "node has no outputs list"
  | unnamedInput _ => "input has no name"
  | unnamedOutput _ => "output has no name"
  | incomplete position part =>
    "connection #" ++ toString position ++ " is missing '" ++ part.name ++ "'"
  | emptyId => "node id is empty"
  | repeatedId _ => "node id is declared more than once"
  | unknownNode _ c => "connection " ++ c.arrow ++ " references an unknown node"
  | inputTaken c => "input '" ++ c.toInput ++ "' is targeted by more than one connection"

/-- The fault with the place where it was found. -/
def message (f : GraphFault) : String :=
  let place := match f.node? with
    | some id => " at node '" ++ id ++ "'"
    | none => ""
  "Malformed graph" ++ place ++ ": missing or invalid field '" ++ f.field ++ "': " ++ f.reason

end GraphFault

/-! ## Well-formed graphs -/

/-- What the parts of a graph have to satisfy. -/
structure Graph.Valid (nodes : List Node) (connections : List Connection) : Prop where
  id_ne_empty : ∀ n ∈ nodes, n.id ≠ ""
  ids_nodup : (nodes.map Node.id).Nodup
  from_declared : ∀ c ∈ connections, c.fromNode ∈ nodes.map Node.id
  to_declared : ∀ c ∈ connections, c.toNode ∈ nodes.map Node.id
  targets_nodup : (connections.map Connection.target).Nodup

/-- A graph. -/
structure Graph where
  nodes : List Node
  connections : List Connection
  valid : Graph.Valid nodes connections

namespace Graph

/-- The first fault among the ids of the nodes, of which the ids in `seen` are used before. -/
def idFault? (seen : List String) : List Node → Option GraphFault
  | [] => none
  | n :: rest =>
    if n.id = "" then some .emptyId
    else if n.id ∈ seen then some (.repeatedId n.id)
    else idFault? (n.id :: seen) rest

/-- The fault of a connection between nodes with the given ids, when the inputs in `taken` are
connected before. -/
def linkFault? (ids : List String) (taken : List (String × String)) (c : Connection) :
    Option GraphFault :=
  if c.fromNode ∉ ids then some (.unknownNode c.fromNode c)
  else if c.toNode ∉ ids then some (.unknownNode c.toNode c)
  else if c.target ∈ taken then some (.inputTaken c)
  else none

/-- The first fault among the connections. -/
def linksFault? (ids : List String) (taken : List (String × String)) :
    List Connection → Option GraphFault
  | [] => none
  | c :: rest =>
    match linkFault? ids taken c with
    | some fault => some fault
    | none => linksFault? ids (c.target :: taken) rest

/-- The connections in front of the first one that is at fault. -/
def soundLinks (ids : List String) (taken : List (String × String)) :
    List Connection → List Connection
  | [] => []
  | c :: rest =>
    match linkFault? ids taken c with
    | some _ => []
    | none => c :: soundLinks ids (c.target :: taken) rest

/-- The first fault of a graph with the given parts: those of the ids come first. -/
def fault? (nodes : List Node) (connections : List Connection) : Option GraphFault :=
  match idFault? [] nodes with
  | some fault => some fault
  | none => linksFault? (nodes.map Node.id) [] connections

theorem of_idFault?_eq_none {seen : List String} {nodes : List Node}
    (h : idFault? seen nodes = none) :
    (∀ n ∈ nodes, n.id ≠ "") ∧ (nodes.map Node.id).Nodup ∧ ∀ n ∈ nodes, n.id ∉ seen := by
  induction nodes generalizing seen with
  | nil => simp
  | cons n rest ih =>
    simp only [idFault?] at h
    split at h
    · simp at h
    · split at h
      · simp at h
      · rename_i hne hseen
        obtain ⟨h₁, h₂, h₃⟩ := ih h
        refine ⟨by simpa [hne] using h₁, ?_, ?_⟩
        · simp only [List.map_cons, List.nodup_cons, List.mem_map, not_exists, not_and]
          exact ⟨fun m hm e => h₃ m hm (by simp [e]), h₂⟩
        · simp only [List.mem_cons, forall_eq_or_imp]
          exact ⟨hseen, fun m hm hs => h₃ m hm (List.mem_cons_of_mem _ hs)⟩

theorem of_linkFault?_eq_none {ids : List String} {taken : List (String × String)}
    {c : Connection} (h : linkFault? ids taken c = none) :
    c.fromNode ∈ ids ∧ c.toNode ∈ ids ∧ c.target ∉ taken := by
  unfold linkFault? at h
  split at h
  · simp at h
  · split at h
    · simp at h
    · split at h
      · simp at h
      · rename_i h₁ h₂ h₃
        exact ⟨Decidable.of_not_not h₁, Decidable.of_not_not h₂, h₃⟩

theorem of_linksFault?_eq_none {ids : List String} {taken : List (String × String)}
    {connections : List Connection} (h : linksFault? ids taken connections = none) :
    (∀ c ∈ connections, c.fromNode ∈ ids ∧ c.toNode ∈ ids) ∧
      (connections.map Connection.target).Nodup ∧ ∀ c ∈ connections, c.target ∉ taken := by
  induction connections generalizing taken with
  | nil => simp
  | cons c rest ih =>
    simp only [linksFault?] at h
    split at h
    · simp at h
    · rename_i hc
      obtain ⟨hfrom, hto, htaken⟩ := of_linkFault?_eq_none hc
      obtain ⟨h₁, h₂, h₃⟩ := ih h
      refine ⟨by simpa [hfrom, hto] using h₁, ?_, ?_⟩
      · simp only [List.map_cons, List.nodup_cons, List.mem_map, not_exists, not_and]
        exact ⟨fun d hd e => h₃ d hd (by simp [e]), h₂⟩
      · simp only [List.mem_cons, forall_eq_or_imp]
        exact ⟨htaken, fun d hd hs => h₃ d hd (List.mem_cons_of_mem _ hs)⟩

/-- Parts without a fault are well-formed. -/
theorem valid_of_fault?_eq_none {nodes : List Node} {connections : List Connection}
    (h : fault? nodes connections = none) : Valid nodes connections := by
  unfold fault? at h
  split at h
  · simp at h
  · rename_i hids
    obtain ⟨hne, hnodup, _⟩ := of_idFault?_eq_none hids
    obtain ⟨hends, htargets, _⟩ := of_linksFault?_eq_none h
    exact ⟨hne, hnodup, fun c hc => (hends c hc).1, fun c hc => (hends c hc).2, htargets⟩

/-- The graph with the given parts, or their first fault. -/
def ofParts (nodes : List Node) (connections : List Connection) : Except GraphFault Graph :=
  match h : fault? nodes connections with
  | some fault => .error fault
  | none => .ok ⟨nodes, connections, valid_of_fault?_eq_none h⟩

/-! ## Looking things up -/

variable (g : Graph)

/-- The number of nodes. -/
def size : Nat := g.nodes.length

/-- The node with an id. -/
def node? (id : String) : Option Node := g.nodes.find? fun n => n.id = id

/-- The place of a node in the declaration order. -/
def position? (id : String) : Option Nat := g.nodes.findIdx? fun n => n.id = id

/-- The connection into an input of a node. -/
def incoming? (node input : String) : Option Connection :=
  g.connections.find? fun c => c.toNode = node ∧ c.toInput = input

end Graph

/-! ## Connections that carry no data -/

/-- A connection into an input that its target does not declare: it is kept as a dependency. -/
structure UndeclaredInput where
  node : String
  input : String
deriving DecidableEq

/-- The node that a connection leads to, if it does not declare the input. -/
def Connection.undeclared? (nodes : List Node) (c : Connection) : Option UndeclaredInput :=
  match nodes.find? fun n => n.id = c.toNode with
  | some n =>
    if c.suppliesBehavior || n.inputs.any fun i => i.name = c.toInput then none
    else some ⟨n.id, c.toInput⟩
  | none => none

/-- The undeclared inputs that come to light while the parts of a graph are checked. -/
def Graph.undeclaredInputs (nodes : List Node) (connections : List Connection) :
    List UndeclaredInput :=
  match idFault? [] nodes with
  | some _ => []
  | none =>
    (soundLinks (nodes.map Node.id) [] connections).filterMap (Connection.undeclared? nodes)

end Dataflow

import Dataflow.Graph.Basic

/-!
# Scheduling

Nodes are scheduled by counting.  Every connection makes its target depend on its origin, also
one that supplies a function or leads to an undeclared input.  A node is ready when no
dependency is left; completing a node takes its edges off the counts of its successors, and
those that reach zero join the queue in declaration order.
-/

namespace Dataflow

/-- The dependencies among the nodes of a graph, given by their positions in declaration
order; two connections between the same nodes are two edges. -/
structure Dependencies where
  size : Nat
  edges : List (Nat × Nat)

namespace Dependencies

/-- The targets of the edges from a node, in the order of the connections. -/
def successors (d : Dependencies) (node : Nat) : List Nat :=
  d.edges.filterMap fun e => if e.1 = node then some e.2 else none

/-- The number of edges into a node. -/
def inDegree (d : Dependencies) (node : Nat) : Nat := d.edges.countP fun e => e.2 = node

end Dependencies

/-- The positions of both ends of a connection. -/
def Graph.edge? (g : Graph) (c : Connection) : Option (Nat × Nat) := do
  return (← g.position? c.fromNode, ← g.position? c.toNode)

/-- The dependencies of a graph. -/
def Graph.dependencies (g : Graph) : Dependencies := ⟨g.size, g.connections.filterMap g.edge?⟩

/-- How far a node has come; it only moves forward. -/
inductive NodeState where
  | unvisited
  | ready
  | processed
deriving DecidableEq, Repr

/-- The nodes that are ready, with the counts that decide which node is next. -/
structure ReadyQueue where
  deps : Dependencies
  /-- For each node the number of edges from nodes that are not processed. -/
  remaining : List Nat
  states : List NodeState
  /-- The ready nodes that have not been taken. -/
  queue : List Nat

namespace ReadyQueue

/-- The queue at the start: the nodes without dependencies are ready. -/
def start (d : Dependencies) : ReadyQueue where
  deps := d
  remaining := (List.range d.size).map d.inDegree
  states := (List.range d.size).map fun v => if d.inDegree v = 0 then .ready else .unvisited
  queue := (List.range d.size).filter fun v => d.inDegree v = 0

/-- The node at the head of the queue, and the queue without it. -/
def pop? (q : ReadyQueue) : Option (Nat × ReadyQueue) :=
  match q.queue with
  | [] => none
  | v :: rest => some (v, { q with queue := rest })

/-- The state of a node. -/
def state? (q : ReadyQueue) (node : Nat) : Option NodeState := q.states[node]?

/-- The queue after a node is done: its successors have fewer dependencies left, and those
that have none join the queue in declaration order. -/
def complete (q : ReadyQueue) (node : Nat) : ReadyQueue :=
  let next := q.deps.successors node
  let remaining := q.remaining.mapIdx fun v r => r - next.count v
  let states := q.states.set node .processed
  let released := (List.range q.deps.size).filter fun v =>
    remaining[v]? = some 0 ∧ states[v]? = some .unvisited
  { q with
    remaining
    states := states.mapIdx fun v s => if v ∈ released then .ready else s
    queue := q.queue ++ released }

/-- The nodes that are not processed, in declaration order. -/
def unprocessed (q : ReadyQueue) : List Nat :=
  (List.range q.deps.size).filter fun v => q.states[v]? ≠ some .processed

/-- Takes and completes up to `n` nodes, each at the head of the queue when its turn comes.
Gives the nodes in this order and the queue at the end. -/
def drain : Nat → ReadyQueue → List Nat × ReadyQueue
  | 0, q => ([], q)
  | n + 1, q =>
    match q.pop? with
    | none => ([], q)
    | some (v, q) =>
      let (order, last) := drain n (q.complete v)
      (v :: order, last)

end ReadyQueue

/-! ## The order of a graph -/

/-- Nodes that never become ready, because a cycle holds them back. -/
structure Cycle where
  nodes : List String
deriving DecidableEq

/-- The ids of the nodes at the given positions. -/
def Graph.idsAt (g : Graph) (positions : List Nat) : List String :=
  positions.filterMap fun v => g.nodes[v]?.map Node.id

/-- The nodes in the order in which they become ready, and the queue at the end.  No node is
queued twice, so that there are at most as many rounds as nodes. -/
def Graph.scheduled (g : Graph) : List Nat × ReadyQueue :=
  (ReadyQueue.start g.dependencies).drain g.size

/-- All nodes in an order in which every connection leads forward, or the nodes that are held
back by a cycle. -/
def Graph.topologicalOrder (g : Graph) : Except Cycle (List Nat) :=
  let (order, last) := g.scheduled
  if order.length < g.size then .error ⟨g.idsAt last.unprocessed⟩ else .ok order

end Dataflow

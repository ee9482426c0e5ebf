import Dataflow.Run.Realization

/-!
# Reports

What a run leaves: the outputs of every node that ran, the failures in the order of the plan,
and whether a cancellation kept some node from running.
-/

namespace Dataflow

/-- The report of a run. -/
structure Report where
  outputs : Dict Outputs
  failures : List NodeError
  cancelled : Bool

namespace Report

/-- Whether every node ran, and none failed. -/
def isSuccess (r : Report) : Bool := r.failures.isEmpty && !r.cancelled

/-- The value of an output. -/
def output? (r : Report) (node output : String) : Option Value :=
  (r.outputs.find? node).bind fun outputs => outputs.find? output

/-- The failure of a node. -/
def failure? (r : Report) (node : String) : Option NodeError :=
  r.failures.find? fun e => e.id = node

end Report

/-- What is stored for the nodes of a plan, by their places. -/
abbrev Slots : Type := Nat → Option Outputs

namespace Plan

/-- The value that is stored for an output of a node.  Of several nodes with one id the last
counts. -/
def storedValue (p : Plan) (slots : Slots) : Available := fun node output => do
  (← slots (← p.lastPosition? node)).find? output

/-- The outputs of all nodes for which some are stored. -/
def collected (p : Plan) (slots : Slots) : Dict Outputs :=
  Dict.ofList (p.nodes.zipIdx.filterMap fun (n, place) => (slots place).map fun o => (n.id, o))

/-- The event at the end of a run. -/
def finished (p : Plan) (r : Report) : Event :=
  .finished p.size r.outputs.size r.failures.length r.cancelled

end Plan

/-- Whether an event cancels the token that a run heeds, if it heeds one. -/
def Event.stops (token : Option CancelToken) (e : Event) : Bool :=
  match e.cancels?, token with
  | some t, some t' => t == t'
  | _, _ => false

end Dataflow

import Dataflow.Plan.Basic
import Dataflow.Plan.Bytes
import Dataflow.Value.Json

/-!
# Saved plans

The bytes of a plan.  The parts of a node follow each other in their order; the forms of a
binding and of a behavior source are numbered from zero; a literal is kept as JSON text.
A plan that is read back must have links that lead forward and agree with the counts, and
what follows the plan in the input is ignored.
-/

namespace Dataflow

/-! ## Links -/

/-- What is wrong with the links of a plan. -/
inductive LinkFault where
  /-- A successor that does not come later in the plan. -/
  | misplaced (node : String) (successor position : Nat)
  /-- A count that differs from the number of edges. -/
  | miscounted (node : String) (declared counted : Nat)
deriving DecidableEq

/-- The fault in words. -/
def LinkFault.message : LinkFault → String
  | misplaced node successor position =>
    "node '" ++ node ++ "' lists successor #" ++ toString successor ++ " from position "
      ++ toString position
  | miscounted node declared counted =>
    "node '" ++ node ++ "' declares " ++ toString declared ++ " dependencies but "
      ++ toString counted ++ " edges lead to it"

namespace Plan

/-- The first successor of a node at a position that does not come later in the plan. -/
def misplaced? (p : Plan) (n : PlannedNode) (position : Nat) : Option LinkFault :=
  (n.successors.find? fun s => s ≤ position || p.size ≤ s).map fun s => .misplaced n.id s position

/-- The number of edges that lead to a position. -/
def edgesInto (p : Plan) (position : Nat) : Nat :=
  (p.nodes.flatMap PlannedNode.successors).count position

/-- The fault of a node whose count differs from the number of edges to its position. -/
def miscounted? (p : Plan) (n : PlannedNode) (position : Nat) : Option LinkFault :=
  let counted := p.edgesInto position
  if n.dependencyCount = counted then none
  else some (.miscounted n.id n.dependencyCount counted)

/-- The first fault of the links: all successors come before all counts. -/
def linkFault? (p : Plan) : Option LinkFault :=
  (p.nodes.zipIdx.findSome? fun n => p.misplaced? n.1 n.2)
    <|> p.nodes.zipIdx.findSome? fun n => p.miscounted? n.1 n.2

end Plan

/-! ## Writing -/

open Bytes in
/-- The bytes of a binding. -/
def Binding.toBytes? : Binding → Option (List UInt8)
  | connected node output => concat? [ofNat? 0, ofText? node, ofText? output]
  | literal value => concat? [ofNat? 1, ofText? value.jsonText]
  | missing => ofNat? 2

open Bytes in
/-- The bytes of a behavior source. -/
def BehaviorSource.toBytes? : BehaviorSource → Option (List UInt8)
  | static key => concat? [ofNat? 0, ofText? key]
  | inline source => concat? [ofNat? 1, ofText? source]
  | upstream node output => concat? [ofNat? 2, ofText? node, ofText? output]
  | external module name => concat? [ofNat? 3, ofText? module, ofText? name]

open Bytes in
/-- The bytes of a planned node. -/
def PlannedNode.toBytes? (n : PlannedNode) : Option (List UInt8) :=
  concat? [
    ofText? n.id,
    ofNat? n.declared,
    ofText? n.name,
    ofList? ofText? n.outputs,
    ofList? (fun a => concat? [ofText? a.1, a.2.toBytes?]) n.arguments,
    n.behavior.toBytes?,
    ofList? ofNat? n.successors,
    ofNat? n.dependencyCount]

/-- The bytes of a plan.  There are none if some number or length takes more than 64 bits. -/
def Plan.toBytes? (p : Plan) : Option (List UInt8) := Bytes.ofList? PlannedNode.toBytes? p.nodes

/-! ## Reading -/

open Bytes in
/-- Reads a binding. -/
def Binding.ofBytes? : Reader Binding := fun bytes => do
  match ← index? bytes with
  | (0, rest) =>
    let (node, rest) ← text? rest
    let (output, rest) ← text? rest
    return (.connected node output, rest)
  | (1, rest) =>
    let (json, rest) ← text? rest
    return (.literal (← Value.alternativeOfJsonText? json), rest)
  | (2, rest) => return (.missing, rest)
  | _ => none

open Bytes in
/-- Reads a behavior source. -/
def BehaviorSource.ofBytes? : Reader BehaviorSource := fun bytes => do
  match ← index? bytes with
  | (0, rest) =>
    let (key, rest) ← text? rest
    return (.static key, rest)
  | (1, rest) =>
    let (source, rest) ← text? rest
    return (.inline source, rest)
  | (2, rest) =>
    let (node, rest) ← text? rest
    let (output, rest) ← text? rest
    return (.upstream node output, rest)
  | (3, rest) =>
    let (module, rest) ← text? rest
    let (name, rest) ← text? rest
    return (.external module name, rest)
  | _ => none

open Bytes in
/-- Reads a named binding. -/
def readArgument? : Reader (String × Binding) := fun bytes => do
  let (name, rest) ← text? bytes
  let (binding, rest) ← Binding.ofBytes? rest
  return ((name, binding), rest)

open Bytes in
/-- Reads a planned node. -/
def PlannedNode.ofBytes? : Reader PlannedNode := fun bytes => do
  let (id, rest) ← text? bytes
  let (declared, rest) ← nat? rest
  let (name, rest) ← text? rest
  let (outputs, rest) ← list? text? rest
  let (arguments, rest) ← list? readArgument? rest
  let (behavior, rest) ← BehaviorSource.ofBytes? rest
  let (successors, rest) ← list? nat? rest
  let (dependencyCount, rest) ← nat? rest
  return ({ id, declared, name, outputs, arguments, behavior, successors, dependencyCount }, rest)

/-- Why a plan cannot be saved or loaded. -/
inductive PlanError where
  /-- The file cannot be read or written. -/
  | file
  | encode
  | decode
  | inconsistent (fault : LinkFault)
deriving DecidableEq

/-- The error in words; the first three leave out what the system or the format says. -/
def PlanError.message : PlanError → String
  | file => "Plan I/O failed"
  | encode => "Plan encoding failed"
  | decode => "Plan decoding failed"
  | inconsistent fault => "Plan is inconsistent: " ++ fault.message

namespace Plan

/-- The bytes of a plan, or the error that there are none. -/
def save (p : Plan) : Except PlanError (List UInt8) :=
  match p.toBytes? with
  | some bytes => .ok bytes
  | none => .error .encode

/-- The plan at the start of the input, with sound links. -/
def load (bytes : List UInt8) : Except PlanError Plan :=
  match Bytes.list? PlannedNode.ofBytes? bytes with
  | none => .error .decode
  | some (nodes, _) =>
    match linkFault? ⟨nodes⟩ with
    | some fault => .error (.inconsistent fault)
    | none => .ok ⟨nodes⟩

end Plan

end Dataflow

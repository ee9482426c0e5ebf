import Dataflow.Error
import Dataflow.Program.Basic

/-!
# Programs of plans

A plan has a program if every input has a binding and every function that should be in the
registry is there.  The entry block follows the order of the plan; imports and definitions
follow the declaration order of the graph, each module and each function name once.
-/

namespace Dataflow

/-! ## Faults that show before anything runs -/

/-- An error of a node of a plan. -/
def PlannedNode.fault (n : PlannedNode) (f : NodeFault) : NodeError := ⟨n.id, n.name, f⟩

/-- What keeps a node from being called, as far as the plan and the registry tell. -/
def PlannedNode.staticFault? (r : Registry) (n : PlannedNode) : Option NodeFault :=
  match n.missingInput? with
  | some input => some (.missingInput input)
  | none =>
    match n.behavior with
    | .static key => if r.contains key then none else some (.unregistered key)
    | _ => none

namespace Program

/-! ## The entry block -/

/-- The argument of a binding.  An input without a binding never reaches a program. -/
def argumentOf (vars : Variables) : Binding → Argument
  | .connected node output => .variable (vars.nameOf (.output node output))
  | .literal value => .literal value
  | .missing => .literal .null

/-- What is called for a node. -/
def calleeOf (vars : Variables) (n : PlannedNode) : Callee :=
  match n.behavior with
  | .static _ | .inline _ => .function n.name
  | .external module name => .member module name
  | .upstream node output => .materialized (vars.nameOf (.output node output)) n.name

/-- The call of a node. -/
def callOf (vars : Variables) (n : PlannedNode) : Call :=
  ⟨calleeOf vars n, n.arguments.map fun a => (a.1, argumentOf vars a.2)⟩

/-- The lines of a node: its call, and for several outputs one more line for each of them. -/
def linesOf (vars : Variables) (n : PlannedNode) : List Line :=
  match n.outputs with
  | [] => [.run (callOf vars n)]
  | [output] => [.assign (vars.nameOf (.output n.id output)) (callOf vars n)]
  | outputs =>
    let result := vars.nameOf (.result n.id)
    .assign result (callOf vars n)
      :: outputs.map fun output => .unpack (vars.nameOf (.output n.id output)) result output

/-! ## The other sections -/

/-- The nodes in declaration order. -/
def declaredOrder (p : Plan) : List PlannedNode :=
  p.nodes.mergeSort fun a b => a.declared ≤ b.declared

/-- The module that a node needs. -/
def moduleOf? (n : PlannedNode) : Option String :=
  match n.behavior with
  | .external module _ => some module
  | _ => none

/-- Whether the function of a node is made from text at run time. -/
def isMaterialized (n : PlannedNode) : Bool :=
  match n.behavior with
  | .upstream .. => true
  | _ => false

/-- The texts that nodes bring along, for each function name the first one; the names in `seen`
have theirs. -/
def sourcesOf (seen : List String) : List PlannedNode → List String
  | [] => []
  | n :: rest =>
    match n.behavior with
    | .inline source =>
      if n.name ∈ seen then sourcesOf seen rest else source :: sourcesOf (n.name :: seen) rest
    | _ => sourcesOf seen rest

/-- A text of definitions without its margin. -/
def dedented (source : String) : String := String.ofList (Text.dedent source.toList)

/-- The program of a plan in which nothing is missing. -/
def ofPlan (p : Plan) : Program :=
  let declared := declaredOrder p
  { modules := (declared.filterMap moduleOf?).eraseDups
    materializes := declared.any isMaterialized
    definitions := (sourcesOf [] declared).map dedented
    entry := p.nodes.flatMap (linesOf (Variables.ofPlan p)) }

end Program

namespace Plan

/-- The nodes in front of the first one that cannot be called. -/
def callable (r : Registry) (p : Plan) : List PlannedNode :=
  p.nodes.takeWhile fun n => (n.staticFault? r).isNone

/-- The error of the first node that cannot be called. -/
def staticError? (r : Registry) (p : Plan) : Option NodeError :=
  p.nodes.findSome? fun n => (n.staticFault? r).map n.fault

/-- The program of a plan. -/
def program (r : Registry) (p : Plan) : Except NodeError Program :=
  match p.staticError? r with
  | some e => .error e
  | none => .ok (.ofPlan p)

end Plan

end Dataflow

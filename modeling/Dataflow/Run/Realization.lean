import Dataflow.Event
import Dataflow.Program.Generation

/-!
# Realizing a node

What is done for one node of a plan: its arguments are gathered from the outputs of other
nodes, its function is found or compiled, the function is called, and the result is split
among the declared outputs.  Panics of behaviors and compilers count as errors.
-/

namespace Dataflow

/-- The outputs of a node. -/
abbrev Outputs : Type := Dict Value

/-- How the result of a node with several outputs is checked. -/
inductive OutputPolicy where
  /-- It must be a mapping with exactly the declared outputs. -/
  | strict
  /-- It may be any mapping. -/
  | lenient
deriving DecidableEq, Repr

/-- What the nodes of a run draw on. -/
structure Environment where
  registry : Registry
  compiler : Compiler
  policy : OutputPolicy

/-- What the nodes before have put out: the value of an output of a node. -/
abbrev Available : Type := String → String → Option Value

/-- The functions that are compiled already, by their names and texts. -/
abbrev Cache : Type := List ((String × String) × Behavior)

/-- The function compiled from a name and a text. -/
def Cache.find? (cache : Cache) (name source : String) : Option Behavior :=
  (List.find? (fun e => e.1 = (name, source)) cache).map Prod.snd

/-! ## Arguments -/

/-- The value of a binding of an input. -/
def Binding.value (available : Available) (input : String) : Binding → Except NodeFault Value
  | connected node output =>
    match available node output with
    | some v => .ok v
    | none => .error (.missingInput input)
  | literal value => .ok value
  | missing => .error (.missingInput input)

/-- The arguments with those of the given bindings added. -/
def gather (available : Available) (args : Arguments) :
    List (String × Binding) → Except NodeFault Arguments
  | [] => .ok args
  | (input, binding) :: rest => do
    gather available (args.push input (← binding.value available input)) rest

/-- The arguments of a node.  An input without a binding counts before anything else. -/
def PlannedNode.gathered (available : Available) (n : PlannedNode) : Except NodeFault Arguments :=
  match n.missingInput? with
  | some input => .error (.missingInput input)
  | none => gather available ⟨[]⟩ n.arguments

/-! ## Functions -/

/-- A function that is ready, or the text from which it is compiled. -/
inductive FunctionSource where
  | ready (b : Behavior)
  | text (source : String)

/-- Where a node's function comes from. -/
def BehaviorSource.resolve (r : Registry) (available : Available) :
    BehaviorSource → Except NodeFault FunctionSource
  | static key =>
    match r.find? key with
    | some b => .ok (.ready b)
    | none => .error (.unregistered key)
  | external module name =>
    match r.find? (qualifiedName module name) with
    | some b => .ok (.ready b)
    | none => .error (.unavailable (qualifiedName module name))
  | inline source => .ok (.text source)
  | upstream node output =>
    match available node output with
    | some (.text source) => .ok (.text source)
    | some v => .error (.notText node output v.kind)
    | none => .error (.noText node output)

/-- A result as that of a node. -/
def fromCall {α : Type} : Except BehaviorError α → Except NodeFault α
  | .ok a => .ok a
  | .error e => .error (.failed e)

/-- The function with a name in a text. -/
def Environment.compiled (env : Environment) (name source : String) : Except NodeFault Behavior :=
  fromCall (env.compiler name source).contained

/-! ## Outputs -/

/-- The outputs of a result.  A single output is the result itself. -/
def shaped (policy : OutputPolicy) (outputs : List String) (result : Value) :
    Except NodeFault Outputs :=
  match outputs with
  | [] => .ok .empty
  | [output] => .ok (Dict.empty.insert output result)
  | declared =>
    match result with
    | .map fields =>
      let agrees := fields.size == declared.length && declared.all fun o => fields.contains o
      if policy = .lenient ∨ agrees = true then .ok fields
      else .error (.wrongShape declared (.mapping fields.keys))
    | v => .error (.wrongShape declared (.kind v.kind))

/-- The outputs of a node that fails: all of them null. -/
def PlannedNode.nulls (n : PlannedNode) : Outputs :=
  Dict.ofList (n.outputs.map fun o => (o, Value.null))

/-! ## Realization -/

/-- What comes of a node. -/
structure Realized where
  result : Except NodeFault Outputs
  cache : Cache
  events : List Event

namespace Realized

/-- The fault, if there is one. -/
def fault? (r : Realized) : Option NodeFault :=
  match r.result with
  | .ok _ => none
  | .error fault => some fault

/-- The outputs that are stored for a node. -/
def stored (r : Realized) (n : PlannedNode) : Outputs :=
  match r.result with
  | .ok outputs => outputs
  | .error _ => n.nulls

end Realized

/-- A call of the function of a node, after some events. -/
def Environment.called (env : Environment) (n : PlannedNode) (args : Arguments) (b : Behavior)
    (cache : Cache) (events : List Event) : Realized :=
  let response := b args
  { result := (fromCall response.outcome.contained).bind (shaped env.policy n.outputs)
    cache
    events := events ++ response.effects.map .effect }

/-- Realizes a node.  A function that is compiled enters the cache, and one that is there is
not compiled again. -/
def Environment.realize (env : Environment) (available : Available) (cache : Cache)
    (n : PlannedNode) : Realized :=
  let resolved := do
    let args ← n.gathered available
    return (args, ← n.behavior.resolve env.registry available)
  match resolved with
  | .error fault => ⟨.error fault, cache, []⟩
  | .ok (args, .ready b) => env.called n args b cache []
  | .ok (args, .text source) =>
    match cache.find? n.name source with
    | some b => env.called n args b cache []
    | none =>
      match env.compiled n.name source with
      | .error fault => ⟨.error fault, cache, [.compiled n.name]⟩
      | .ok b => env.called n args b (((n.name, source), b) :: cache) [.compiled n.name]

end Dataflow

import Dataflow.Behavior
import Dataflow.Plan.Basic

/-!
# Errors

What can keep a graph from being planned, a node from running, or a program from being
written.  An error is kept by its cause; `message` puts it into words.
-/

namespace Dataflow

/-- What a call returned instead of a mapping of the declared outputs. -/
inductive WrongShape where
  /-- A mapping with other keys. -/
  | mapping (keys : List String)
  /-- A value of another kind. -/
  | kind (name : String)
deriving DecidableEq

/-- The wrong shape in words. -/
def WrongShape.message : WrongShape → String
  | mapping keys => "a mapping with keys [" ++ ", ".intercalate keys ++ "]"
  | kind name => name

/-- Why a node cannot run, or failed. -/
inductive NodeFault where
  | missingInput (input : String)
  /-- No behavior is registered under the key. -/
  | unregistered (key : String)
  /-- No function of a module is registered under the qualified name. -/
  | unavailable (name : String)
  /-- The output that should supply the function text supplied a value of another kind. -/
  | notText (node output kind : String)
  /-- The output that should supply the function text supplied nothing. -/
  | noText (node output : String)
  /-- The call, or the compilation of the function, failed. -/
  | failed (error : BehaviorError)
  | wrongShape (expected : List String) (found : WrongShape)
deriving DecidableEq

/-- A fault of a node. -/
structure NodeError where
  id : String
  name : String
  fault : NodeFault
deriving DecidableEq

/-- The fault of a node in words. -/
def NodeError.message (e : NodeError) : String :=
  let node := "Node '" ++ e.id ++ "' (" ++ e.name ++ ")"
  let unresolved reason := node ++ " has no resolvable behavior: " ++ reason
  match e.fault with
  | .missingInput input => node ++ " is missing required input '" ++ input ++ "'"
  | .unregistered key => unresolved ("no behavior registered under '" ++ key ++ "'")
  | .unavailable name => unresolved ("external function '" ++ name ++ "' is not available")
  | .notText from' output kind =>
    unresolved ("'" ++ from' ++ "." ++ output ++ "' supplied " ++ kind
      ++ " instead of source text")
  | .noText from' output =>
    unresolved ("'" ++ from' ++ "." ++ output ++ "' supplied no source text")
  | .failed error => node ++ " failed: " ++ error.message
  | .wrongShape expected found =>
    node ++ " returned " ++ found.message ++ ", expected a mapping with keys ["
      ++ ", ".intercalate expected ++ "]"

/-- Any error of the engine. -/
inductive EngineError where
  | malformed (fault : GraphFault)
  | cycle (cycle : Cycle)
  | node (error : NodeError)
deriving DecidableEq

namespace EngineError

/-- The error in words. -/
def message : EngineError → String
  | malformed fault => fault.message
  | cycle c => "Cycle detected; these nodes never became ready: " ++ ", ".intercalate c.nodes
  | node e => e.message

/-- The node that the error is laid to. -/
def node? : EngineError → Option String
  | malformed fault => fault.node?
  | cycle _ => none
  | node e => some e.id

end EngineError

end Dataflow

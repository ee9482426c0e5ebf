import Dataflow.Value.Basic
import Dataflow.Text.Escaped

/-!
# Behaviors

What a node calls.  A behavior is a function of its arguments; besides a result it may have
effects that the run observes: lines it prints, entries it leaves in a record of calls, and
tokens it cancels.  Behaviors are found in a registry or made from text by a compiler.
-/

namespace Dataflow

/-! ## Results -/

/-- An error that a behavior or a compiler reports. -/
inductive BehaviorError where
  | compile (name message : String)
  | arity (function message : String)
  | typeMismatch (operation expected found : String)
  | unknownName (name : String)
  | custom (message : String)
deriving DecidableEq

/-- The error in words. -/
def BehaviorError.message : BehaviorError → String
  | compile name message => "Compilation of '" ++ name ++ "' failed: " ++ message
  | arity function message => "'" ++ function ++ "' " ++ message
  | typeMismatch operation expected found =>
    "Type mismatch during operation '" ++ operation ++ "': expected " ++ expected
      ++ ", but found " ++ found
  | unknownName name => "Name '" ++ name ++ "' is not defined"
  | custom message => message

/-- How a call ends.  A panic may carry a message. -/
inductive Outcome (α : Type) where
  | value (a : α)
  | error (e : BehaviorError)
  | panic (message : Option String)

/-- The result of a call whose panics count as errors. -/
def Outcome.contained {α : Type} : Outcome α → Except BehaviorError α
  | value a => .ok a
  | error e => .error e
  | panic message => .error (.custom ("panicked: " ++ message.getD "unknown panic payload"))

/-! ## Arguments -/

/-- Named arguments in the order in which they are passed. -/
structure Arguments where
  entries : List (String × Value)

namespace Arguments

instance : Inhabited Arguments := ⟨⟨[]⟩⟩

/-- The arguments with one more at the end. -/
def push (args : Arguments) (name : String) (v : Value) : Arguments :=
  ⟨args.entries ++ [(name, v)]⟩

/-- The first value passed under a name. -/
def get? (args : Arguments) (name : String) : Option Value :=
  (args.entries.find? fun e => e.1 = name).map Prod.snd

/-- The error of a call without an argument that it needs. -/
def missing (function name : String) : BehaviorError :=
  .arity function ("missing required argument '" ++ name ++ "'")

/-- The first value passed under a name, which the given function needs. -/
def require (args : Arguments) (function name : String) : Except BehaviorError Value :=
  match args.get? name with
  | some v => .ok v
  | none => .error (missing function name)

end Arguments

/-! ## Effects and behaviors -/

/-- A flag that stops runs, by its number. -/
abbrev CancelToken : Type := Nat

/-- What a call does besides giving a result. -/
inductive Effect where
  /-- Prints a line. -/
  | print (line : String)
  /-- Leaves an entry in the record of calls. -/
  | record (entry : String)
  | cancel (token : CancelToken)
deriving DecidableEq

/-- A result with the effects on the way to it. -/
structure Response where
  outcome : Outcome Value
  effects : List Effect

/-- What a node calls. -/
abbrev Behavior : Type := Arguments → Response

/-- Makes the function with a name from a text. -/
abbrev Compiler : Type := String → String → Outcome Behavior

namespace Behavior

/-- A behavior that has no effect. -/
def pure (f : Arguments → Outcome Value) : Behavior := fun args => ⟨f args, []⟩

/-- The behavior that gives the same value at each call. -/
def const (v : Value) : Behavior := pure fun _ => .value v

/-- The behavior that gives its arguments as a mapping; of two with one name the last stays. -/
def collect : Behavior := pure fun args => .value (.map (Dict.ofList args.entries))

/-- The behavior that gives the names of its arguments. -/
def names : Behavior := pure fun args => .value (.list (args.entries.map fun e => .text e.1))

/-- The behavior that gives one of its arguments, which the given function needs. -/
def argument (function name : String) : Behavior := pure fun args =>
  match args.require function name with
  | .ok v => .value v
  | .error e => .error e

/-- The behavior that fails. -/
def fail (e : BehaviorError) : Behavior := pure fun _ => .error e

/-- The behavior that panics. -/
def panic (message : Option String) : Behavior := pure fun _ => .panic message

/-- The behavior with an effect before it. -/
def after (effect : Effect) (b : Behavior) : Behavior := fun args =>
  let response := b args
  { response with effects := effect :: response.effects }

end Behavior

/-! ## Registries -/

/-- Behaviors by key: the id of a node, or a qualified name. -/
abbrev Registry : Type := Dict Behavior

/-- The key of a function of a module. -/
def qualifiedName (module name : String) : String := module ++ "." ++ name

/-- The keys of a registry as a listing. -/
def Registry.listing (r : Registry) : String :=
  "Registry \x7b keys: [" ++ ", ".intercalate (r.keys.map Text.escaped) ++ "] \x7d"

end Dataflow

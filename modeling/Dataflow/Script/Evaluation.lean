import Dataflow.Script.Builtin
import Dataflow.Script.Definition

/-!
# Evaluation of scripts

Expressions are evaluated from left to right among local variables, and a call of a function
runs its statements in order.  What is printed on the way is kept, also when the evaluation
ends in a fault.
-/

namespace Dataflow.Script

/-- A result with the lines printed on the way to it. -/
structure Computed (α : Type) where
  printed : List String
  result : Except Fault α

namespace Computed

instance : Monad Computed where
  pure a := ⟨[], .ok a⟩
  bind x f :=
    match x.result with
    | .ok a => ⟨x.printed ++ (f a).printed, (f a).result⟩
    | .error e => ⟨x.printed, .error e⟩

/-- A result without prints. -/
def quiet {α : Type} (result : Except Fault α) : Computed α := ⟨[], result⟩

/-- A fault without prints. -/
def fail {α : Type} (fault : Fault) : Computed α := quiet (.error fault)

end Computed

/-! ## Expressions -/

/-- The value of a local variable. -/
def lookup (locals : Dict Value) (name : String) : Computed Value :=
  match locals.find? name with
  | some v => pure v
  | none => .fail (.unknownName name)

/-- A call of a builtin function by its name. -/
def callNamed (name : String) (args : List Value) : Computed Value :=
  match Builtin.ofName? name with
  | some b => ⟨b.printed args, b.result args⟩
  | none => .fail (.unknownName name)

/-- A value as the key of a mapping. -/
def keyOf : Value → Except Fault String
  | .text s => .ok s
  | v => .error (.mismatch .mapping .key v)

mutual

/-- The value of an expression. -/
def evaluate (locals : Dict Value) : Expr → Computed Value
  | .arithmetic op left right => do
    let a ← evaluate locals left
    let b ← evaluate locals right
    .quiet (op.apply a b)
  | .negate e => do .quiet (negated (← evaluate locals e))
  | .not e => do return .bool !(← evaluate locals e).isTruthy
  | .and left right => do
    let a ← evaluate locals left
    if a.isTruthy then evaluate locals right else return a
  | .or left right => do
    let a ← evaluate locals left
    if a.isTruthy then return a else evaluate locals right
  | .compare op left right => do
    let a ← evaluate locals left
    let b ← evaluate locals right
    .quiet (op.apply a b)
  | .call name args => do callNamed name (← evaluateItems locals args)
  | .index target index => do
    let t ← evaluate locals target
    let i ← evaluate locals index
    .quiet (indexed t i)
  | .list items => do return .list (← evaluateItems locals items)
  | .map entries => do return .map (← evaluateEntries locals .empty entries)
  | .literal v => pure v
  | .variable name => lookup locals name

/-- The values of a list of expressions. -/
def evaluateItems (locals : Dict Value) : List Expr → Computed (List Value)
  | [] => pure []
  | e :: rest => do
    let v ← evaluate locals e
    return v :: (← evaluateItems locals rest)

/-- A mapping with the given entries added, each key in place of an equal one before it. -/
def evaluateEntries (locals : Dict Value) (fields : Dict Value) :
    List (Expr × Expr) → Computed (Dict Value)
  | [] => pure fields
  | (key, value) :: rest => do
    let k ← Computed.quiet (keyOf (← evaluate locals key))
    let v ← evaluate locals value
    evaluateEntries locals (fields.insert k v) rest

end

/-! ## Functions -/

/-- Runs the statements of a body.  Its end without a result gives null. -/
def execute (locals : Dict Value) : List Statement → Computed Value
  | [] => pure .null
  | .assign target e :: rest => do execute (locals.insert target (← evaluate locals e)) rest
  | .expr e :: rest => do
    let _ ← evaluate locals e
    execute locals rest
  | .return none :: _ => pure .null
  | .return (some e) :: _ => evaluate locals e

/-- The local variables with those of the given parameters.  A default is evaluated where its
parameter stands, and sees the parameters before it. -/
def bindParams (args : Arguments) (locals : Dict Value) : List Param → Computed (Dict Value)
  | [] => pure locals
  | p :: rest => do
    let v ← match args.get? p.name, p.default with
      | some v, _ => pure v
      | none, some e => evaluate locals e
      | none, none => .fail (.missingArgument p.name)
    bindParams args (locals.insert p.name v) rest

namespace FunctionDef

/-- The first argument that is no parameter. -/
def unexpected? (f : FunctionDef) (args : Arguments) : Option String :=
  (args.entries.find? fun a => !f.params.any fun p => p.name == a.1).map Prod.fst

/-- A call of a function.  An argument that is no parameter is refused before anything runs. -/
def call (f : FunctionDef) (args : Arguments) : Computed Value :=
  match f.unexpected? args with
  | some name => .fail (.unexpectedArgument name)
  | none => do execute (← bindParams args .empty f.params) f.body

/-- The behavior of a function. -/
def behavior (f : FunctionDef) : Behavior := fun args =>
  let computed := f.call args
  let outcome : Outcome Value := match computed.result with
    | .ok v => .value v
    | .error fault => .error (fault.error f.name)
  ⟨outcome, computed.printed.map .print⟩

end FunctionDef

/-- The compiler of the language: the function with the given name, as a behavior. -/
def compile : Compiler := fun name source =>
  match findFunction name source with
  | .ok f => .value f.behavior
  | .error e => .error (.compile name e.message)

end Dataflow.Script

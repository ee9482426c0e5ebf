import Dataflow.Value.Basic

/-!
# Expressions and functions of the script language
-/

namespace Dataflow.Script

/-- The operations on two numbers.  The sum joins texts and lists as well. -/
inductive Arithmetic where
  | add
  | subtract
  | multiply
  | divide
  | floorDivide
  | modulo
  | power
deriving DecidableEq, Repr

/-- The comparisons. -/
inductive Comparison where
  | equal
  | notEqual
  | greater
  | greaterEqual
  | less
  | lessEqual
deriving DecidableEq, Repr

/-- An expression. -/
inductive Expr where
  | arithmetic (op : Arithmetic) (left right : Expr)
  | negate (e : Expr)
  | not (e : Expr)
  | and (left right : Expr)
  | or (left right : Expr)
  | compare (op : Comparison) (left right : Expr)
  | call (name : String) (args : List Expr)
  | index (target index : Expr)
  | list (items : List Expr)
  | map (entries : List (Expr × Expr))
  | literal (value : Value)
  | variable (name : String)

instance : Inhabited Expr := ⟨.literal .null⟩

/-- A statement of a function body. -/
inductive Statement where
  | assign (target : String) (e : Expr)
  | expr (e : Expr)
  | return (e : Option Expr)

/-- A parameter; one with a default need not be passed. -/
structure Param where
  name : String
  default : Option Expr

/-- A function definition. -/
structure FunctionDef where
  name : String
  params : List Param
  body : List Statement

end Dataflow.Script

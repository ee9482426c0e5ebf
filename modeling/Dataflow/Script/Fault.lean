import Dataflow.Behavior
import Dataflow.Script.Expr

/-!
# Faults of scripts

Why a call of a script function fails.  A fault is kept by its cause, with the place in the
expression where it arose; `Fault.error` turns it into the error of a behavior.
-/

namespace Dataflow.Script

/-- The functions that every script can call. -/
inductive Builtin where
  | abs
  | len
  | str
  | int
  | float
  | round
  | min
  | max
  | sum
  | print
deriving DecidableEq, Repr

/-- The name of a builtin function. -/
def Builtin.name : Builtin → String
  | abs => "abs"
  | len => "len"
  | str => "str"
  | int => "int"
  | float => "float"
  | round => "round"
  | min => "min"
  | max => "max"
  | sum => "sum"
  | print => "print"

/-- All builtin functions. -/
def Builtin.all : List Builtin := [abs, len, str, int, float, round, min, max, sum, print]

/-- The builtin function with a name. -/
def Builtin.ofName? (name : String) : Option Builtin := all.find? fun b => b.name = name

/-- The sign of an operation. -/
def Arithmetic.sign : Arithmetic → String
  | add => "+"
  | subtract => "-"
  | multiply => "*"
  | divide => "/"
  | floorDivide => "//"
  | modulo => "%"
  | power => "**"

/-- The sign of a comparison. -/
def Comparison.sign : Comparison → String
  | equal => "=="
  | notEqual => "!="
  | greater => ">"
  | greaterEqual => ">="
  | less => "<"
  | lessEqual => "<="

/-- The parts of an expression at which something can go wrong. -/
inductive Place where
  | arithmetic (op : Arithmetic)
  | negation
  | comparison (op : Comparison)
  | mapping
  | builtin (b : Builtin)
deriving DecidableEq, Repr

/-- A place as overflows name it. -/
def Place.name : Place → String
  | arithmetic op => "'" ++ op.sign ++ "'"
  | negation => "unary '-'"
  | comparison op => "'" ++ op.sign ++ "'"
  | mapping => "mapping"
  | builtin b => b.name

/-- A place in the given function as mismatches of kinds name it. -/
def Place.operation (function : String) : Place → String
  | arithmetic op => op.sign ++ " in " ++ function
  | negation => "- in " ++ function
  | comparison op => op.sign ++ " in " ++ function
  | mapping => "\x7b\x7d in " ++ function
  | builtin b => b.name

/-- What an operation takes. -/
inductive Wanted where
  | number
  | comparableNumber
  | integer
  | key
  | list
  | container
  | numberOrText
deriving DecidableEq, Repr

/-- What is wanted, in words. -/
def Wanted.described : Wanted → String
  | number => "Number"
  | comparableNumber => "comparable Number"
  | integer => "Int"
  | key => "Text key"
  | list => "List"
  | container => "Text, List or Map"
  | numberOrText => "Number or Text"

/-- How many arguments a builtin function takes. -/
inductive Count where
  | one
  | oneOrTwo
  /-- As many as there are, but not none. -/
  | some
deriving DecidableEq, Repr

/-- What is said of a call with another number of arguments. -/
def Count.message : Count → String
  | one => "takes exactly one argument"
  | oneOrTwo => "takes one or two arguments"
  | some => "arg is an empty sequence"

/-- Why a call fails. -/
inductive Fault where
  | unexpectedArgument (name : String)
  | missingArgument (name : String)
  | argumentCount (b : Builtin) (count : Count)
  | mismatch (place : Place) (wanted : Wanted) (found : Value)
  | notIndexable (target index : Value)
  | unknownName (name : String)
  | divisionByZero
  | overflow (place : Place)
  | indexOutOfRange (index : Int64)
  | keyNotFound (key : String)
  | noInteger (text : String)
  | noNumber (text : String)

/-- The error of a call of the given function that fails. -/
def Fault.error (function : String) : Fault → BehaviorError
  | unexpectedArgument name =>
    .arity function ("got an unexpected keyword argument '" ++ name ++ "'")
  | missingArgument name => Arguments.missing function name
  | argumentCount b count => .arity b.name count.message
  | mismatch place wanted found =>
    .typeMismatch (place.operation function) wanted.described found.described
  | notIndexable target index =>
    .typeMismatch "[]" "List[Int], Text[Int] or Map[Text]"
      (target.kind ++ "[" ++ index.kind ++ "]")
  | unknownName name => .unknownName name
  | divisionByZero => .custom "division by zero"
  | overflow place => .custom ("integer overflow in " ++ place.name)
  | indexOutOfRange index =>
    .custom ("index " ++ String.ofList (Decimal.intChars index.toInt) ++ " out of range")
  | keyNotFound key => .custom ("key '" ++ key ++ "' not found")
  | noInteger text => .custom ("invalid literal for int(): '" ++ text ++ "'")
  | noNumber text => .custom ("could not convert '" ++ text ++ "' to float")

end Dataflow.Script

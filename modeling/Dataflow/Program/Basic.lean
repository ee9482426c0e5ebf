import Dataflow.Program.Literal
import Dataflow.Program.Variable
import Dataflow.Text.Lines

/-!
# Generated programs

A plan becomes a Python program that makes the same calls in the same order: imports of
modules, a helper that makes functions from text at run time, the definitions that nodes bring
along, and an entry block with one call for each node.  The entry block is a list of `Line`s,
straight-line code over variables, and only `Program.text` puts it into words.
-/

namespace Dataflow

namespace Program

/-- What a call gets for a parameter. -/
inductive Argument where
  | variable (name : String)
  | literal (value : Value)

/-- What is called. -/
inductive Callee where
  | function (name : String)
  | member (module name : String)
  /-- The function with a name from the text that a variable holds. -/
  | materialized (source name : String)
deriving DecidableEq

/-- A call with named arguments. -/
structure Call where
  callee : Callee
  arguments : List (String × Argument)

/-- A line of the entry block. -/
inductive Line where
  /-- A call without a result. -/
  | run (call : Call)
  | assign (target : String) (call : Call)
  /-- The part of a result under a key. -/
  | unpack (target result key : String)

end Program

/-- A program. -/
structure Program where
  modules : List String
  /-- Whether some function is made from text at run time. -/
  materializes : Bool
  definitions : List String
  entry : List Program.Line

namespace Program

/-! ## Text -/

/-- An argument as code. -/
def Argument.text : Argument → String
  | .variable name => name
  | .literal value => Program.literal value

/-- A callee as code. -/
def Callee.text : Callee → String
  | function name => name
  | member module name => module ++ "." ++ name
  | materialized source name => "_materialize(" ++ source ++ ", " ++ textLiteral name ++ ")"

/-- A call as code. -/
def Call.text (c : Call) : String :=
  c.callee.text ++ "("
    ++ Text.joinWith ", " (c.arguments.map fun a => a.1 ++ "=" ++ a.2.text) ++ ")"

/-- A line as code. -/
def Line.text : Line → String
  | run call => call.text
  | assign target call => target ++ " = " ++ call.text
  | unpack target result key => target ++ " = " ++ result ++ "[" ++ textLiteral key ++ "]"

/-- One level of indentation. -/
def indentation : String := "    "

/-- The helper that makes a function from text. -/
def helper : String :=
  "def _materialize(source, name):\n    namespace = \x7b\x7d\n    exec(source, namespace)\n    return namespace[name]"

/-- The entry block as code. -/
def entryText (lines : List Line) : String :=
  let lines := match lines with
    | [] => ["pass"]
    | lines => lines.map Line.text
  "if __name__ == \"__main__\":\n" ++ Text.joinWith "\n" (lines.map (indentation ++ ·))

/-- The sections of a program. -/
def sections (p : Program) : List String :=
  (match p.modules with
    | [] => []
    | modules => [Text.joinWith "\n" (modules.map ("import " ++ ·))])
    ++ (if p.materializes then [helper] else []) ++ p.definitions ++ [entryText p.entry]

/-- A program as code. -/
def text (p : Program) : String := Text.joinWith "\n\n" p.sections ++ "\n"

end Program

end Dataflow

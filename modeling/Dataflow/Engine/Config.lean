import Dataflow.Json.Reader
import Dataflow.Json.Record
import Dataflow.Run.Realization

/-!
# Configurations

The settings of an engine, and their JSON form: a record of the mode and the output policy,
of which either may be left out.  A choice is written by its name, or as an object with that
name and what belongs to it.
-/

namespace Dataflow

/-- How the nodes of a plan are run. -/
inductive Mode where
  | sequential
  /-- On a number of workers, of which there is at least one. -/
  | parallel (workers : Nat)
deriving DecidableEq, Repr

/-- The settings of an engine. -/
structure Config where
  mode : Mode
  policy : OutputPolicy
deriving DecidableEq, Repr

namespace Config

/-- The settings of an engine to which nothing is said. -/
def standard : Config := ⟨.sequential, .strict⟩

instance : Inhabited Config := ⟨standard⟩

end Config

/-- The name of a choice to which nothing else belongs. -/
def Json.choice? : Json → Option String
  | .text name => some name
  | .object [(name, .null)] => some name
  | _ => none

/-! ## Writing -/

/-- A mode as JSON. -/
def Mode.toJson : Mode → Json
  | sequential => .text "sequential"
  | parallel workers => .object [("parallel", .object [("workers", .int workers)])]

/-- A policy as JSON. -/
def OutputPolicy.toJson : OutputPolicy → Json
  | strict => .text "strict"
  | lenient => .text "lenient"

/-- A configuration as JSON. -/
def Config.toJson (c : Config) : Json :=
  .object [("mode", c.mode.toJson), ("output_policy", c.policy.toJson)]

/-! ## Reading -/

/-- A number of workers. -/
def workers? : Json → Option Nat
  | .int n => if 0 ≤ n then some n.toNat else none
  | _ => none

/-- The mode that a tree gives. -/
def Mode.ofJson? (j : Json) : Option Mode :=
  match j with
  | .object [("parallel", setup)] =>
    match setup.fields? [⟨["workers"], false⟩] with
    | some [some n] => (workers? n).map parallel
    | _ => none
  | j => if j.choice? = some "sequential" then some sequential else none

/-- The policy that a tree gives. -/
def OutputPolicy.ofJson? (j : Json) : Option OutputPolicy :=
  match j.choice? with
  | some "strict" => some strict
  | some "lenient" => some lenient
  | _ => none

namespace Config

/-- The value of a part, or another one if the part is missing. -/
def readOr {α : Type} (other : α) (read : Json → Option α) : Option Json → Option α
  | none => some other
  | some j => read j

/-- The configuration that a tree gives. -/
def ofJson? (j : Json) : Option Config := do
  match ← j.fields? [⟨["mode"], true⟩, ⟨["output_policy"], true⟩] with
  | [mode, policy] =>
    return ⟨← readOr standard.mode Mode.ofJson? mode,
      ← readOr standard.policy OutputPolicy.ofJson? policy⟩
  | _ => none

/-- The configuration that a text gives. -/
def ofText? (text : String) : Option Config := (Json.scan? text).bind ofJson?

end Config

end Dataflow

import Dataflow.Plan.Basic
import Dataflow.Text.Classes

/-!
# Variables of a program

Each output of a node has a variable in the generated program, and so has the whole result of
a node with several outputs.  The plain name of such a slot is made from the id and the output,
with every character that no identifier can have replaced, so that different slots can have
the same plain name.  The first of them in the order of the plan keeps it; the others get the
least number that makes their name new and no plain name of any slot.
-/

namespace Dataflow.Program

/-- A text with every character other than ASCII letters, digits and underscores replaced by
an underscore. -/
def sanitized (s : String) : String :=
  String.ofList (s.toList.map fun c => if Text.isPlain c || c == '_' then c else '_')

/-- What a variable holds. -/
inductive Slot where
  | output (node output : String)
  /-- The result of a node with several outputs, before it is taken apart. -/
  | result (node : String)
deriving DecidableEq

/-- The plain name of an output. -/
def outputVariable (node output : String) : String :=
  "node_" ++ sanitized node ++ "_" ++ sanitized output

/-- The plain name of a result. -/
def resultVariable (node : String) : String := "node_" ++ sanitized node

/-- The plain name of a slot. -/
def Slot.plainName : Slot → String
  | output node name => outputVariable node name
  | result node => resultVariable node

/-- The slots of a node. -/
def slotsOf (n : PlannedNode) : List Slot :=
  (if 1 < n.outputs.length then [Slot.result n.id] else []) ++ n.outputs.map (Slot.output n.id)

/-- The slots of a plan, in its order. -/
def slots (p : Plan) : List Slot := p.nodes.flatMap slotsOf

/-- A name with a number. -/
def numbered (name : String) (n : Nat) : String := name ++ "_" ++ toString n

/-- The name with the least number from two on that is not blocked.  Among one more numbers
than there are blocked names, one is free. -/
def leastFree (blocked : List String) (name : String) : String :=
  let free := (List.range (blocked.length + 1)).find? fun k => numbered name (k + 2) ∉ blocked
  numbered name (free.getD blocked.length + 2)

/-- The variables of slots. -/
structure Variables where
  entries : List (Slot × String)

namespace Variables

/-- The variables in use. -/
def taken (vars : Variables) : List String := vars.entries.map Prod.snd

/-- The variable of a slot, if it has one. -/
def find? (vars : Variables) (s : Slot) : Option String :=
  (vars.entries.find? fun e => e.1 = s).map Prod.snd

/-- The variables with one for a slot; `reserved` has the plain names of all slots. -/
def add (reserved : List String) (vars : Variables) (s : Slot) : Variables :=
  match vars.find? s with
  | some _ => vars
  | none =>
    let plain := s.plainName
    let name := if plain ∈ vars.taken then leastFree (reserved ++ vars.taken) plain else plain
    ⟨vars.entries ++ [(s, name)]⟩

/-- The variables of a list of slots. -/
def ofSlots (slots : List Slot) : Variables := slots.foldl (add (slots.map Slot.plainName)) ⟨[]⟩

/-- The variables of a plan. -/
def ofPlan (p : Plan) : Variables := ofSlots (slots p)

/-- The variable of a slot.  A slot without one, which a plan can only name where nothing fills
it, goes by its plain name. -/
def nameOf (vars : Variables) (s : Slot) : String := (vars.find? s).getD s.plainName

end Variables

end Dataflow.Program

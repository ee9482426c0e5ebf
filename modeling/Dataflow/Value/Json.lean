import Dataflow.Json.Reader
import Dataflow.Value.Basic

/-!
# Values in JSON

`toJson` writes a value, `ofJson` reads one.  A second reader, `ofAlternatives?`, tries the
kinds of values one after the other and takes the first that fits; defaults in descriptions
take the first way, and literals in saved plans the second.
-/

namespace Dataflow.Value

/-! ## Writing -/

mutual

/-- The tree of a value. -/
def toJson : Value → Json
  | null => .null
  | bool b => .bool b
  | int n => .int n.toInt
  | float x => .float x
  | text s => .text s
  | list items => .array (itemsToJson items)
  | map fields => .object (fieldsToJson fields)

/-- The trees of the items of a list. -/
def itemsToJson : List Value → List Json
  | [] => []
  | v :: vs => v.toJson :: itemsToJson vs

/-- The members of a mapping, in the order of its keys. -/
def fieldsToJson {low : Option String} : Entries Value low → List (String × Json)
  | .nil => []
  | .cons key v _ rest => (key, v.toJson) :: fieldsToJson rest

end

/-- A value as JSON text on one line. -/
def jsonText (v : Value) : String := v.toJson.compact

/-! ## Reading by the form of the tree -/

/-- Whether an integer fits 64 bits. -/
def fitsInt (n : Int) : Bool := -0x8000000000000000 ≤ n && n < 0x8000000000000000

/-- An integer as a value: one that does not fit 64 bits becomes a double. -/
def ofInt (n : Int) : Value :=
  if fitsInt n then int (Int64.ofInt n) else float (Decimal.ofInteger n)

mutual

/-- The value of a tree.  A part that denotes nothing counts as null. -/
def ofJson : Json → Value
  | .null | .malformed => null
  | .bool b => bool b
  | .int n => ofInt n
  | .float x => float x
  | .text s => text s
  | .array items => list (itemsOfJson items)
  | .object members => map (membersOfJson .empty members)

/-- The values of a list of trees. -/
def itemsOfJson : List Json → List Value
  | [] => []
  | j :: rest => ofJson j :: itemsOfJson rest

/-- A mapping with the members of an object added to it, a later one in place of an earlier. -/
def membersOfJson (fields : Dict Value) : List (String × Json) → Dict Value
  | [] => fields
  | (key, j) :: rest => membersOfJson (fields.insert key (ofJson j)) rest

end

/-! ## Reading by alternatives -/

/-- A tree as null. -/
def asNull? : Json → Option Value
  | .null => some null
  | _ => none

/-- A tree as a truth value. -/
def asBool? : Json → Option Value
  | .bool b => some (bool b)
  | _ => none

/-- A tree as an integer of 64 bits. -/
def asInt? : Json → Option Value
  | .int n => if fitsInt n then some (int (Int64.ofInt n)) else none
  | _ => none

/-- A tree as a double, which an integer is as well. -/
def asFloat? : Json → Option Value
  | .int n => some (float (Decimal.ofInteger n))
  | .float x => some (float x)
  | _ => none

/-- A tree as a text. -/
def asText? : Json → Option Value
  | .text s => some (text s)
  | _ => none

/-- The first of the scalar kinds that a tree fits, in the order in which they are declared. -/
def scalar? (j : Json) : Option Value :=
  asNull? j <|> asBool? j <|> asInt? j <|> asFloat? j <|> asText? j

mutual

/-- The first kind that a tree fits: the scalars, then lists, then mappings. -/
def ofAlternatives? : Json → Option Value
  | .array items => scalar? (.array items) <|> (itemsOfAlternatives? items).map list
  | .object members =>
    scalar? (.object members) <|> (membersOfAlternatives? members).map fun l => map (Dict.ofList l)
  | j => scalar? j

/-- Every item by its first kind. -/
def itemsOfAlternatives? : List Json → Option (List Value)
  | [] => some []
  | j :: rest => do return (← ofAlternatives? j) :: (← itemsOfAlternatives? rest)

/-- Every member's value by its first kind. -/
def membersOfAlternatives? : List (String × Json) → Option (List (String × Value))
  | [] => some []
  | (key, j) :: rest => do return (key, ← ofAlternatives? j) :: (← membersOfAlternatives? rest)

end

/-! ## Texts -/

/-- The value of a JSON text. -/
def ofJsonText? (text : String) : Option Value := (Json.parse? text).map ofJson

/-- The value of a JSON text, read by alternatives. -/
def alternativeOfJsonText? (text : String) : Option Value :=
  (Json.parse? text).bind ofAlternatives?

end Dataflow.Value

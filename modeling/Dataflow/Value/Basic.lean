import Dataflow.Decimal.Notation
import Dataflow.Dict

/-!
# Values

The values that flow between nodes, that stand as defaults in a description and that scripts
compute with.
-/

namespace Dataflow

/-- A value.  Integers have 64 bits, and a mapping has text keys in increasing order. -/
inductive Value where
  | null
  | bool (b : Bool)
  | int (n : Int64)
  | float (x : Float)
  | text (s : String)
  | list (items : List Value)
  | map (fields : Entries Value none)

namespace Value

instance : Inhabited Value := ⟨null⟩

/-- The name of a value's kind, as error messages give it. -/
def kind : Value → String
  | null => "null"
  | bool _ => "bool"
  | int _ => "int"
  | float _ => "float"
  | text _ => "text"
  | list _ => "list"
  | map _ => "map"

/-- Whether the value is absent. -/
def isNull : Value → Bool
  | null => true
  | _ => false

/-- Zero, the empty text, the empty containers, false and null count as false. -/
def isTruthy : Value → Bool
  | null => false
  | bool b => b
  | int n => n != 0
  | float x => x != 0.0
  | text s => !s.isEmpty
  | list items => !items.isEmpty
  | map fields => !fields.isEmpty

/-- The number that a value is, as a double; an integer is rounded to the nearest one. -/
def number? : Value → Option Float
  | int n => some (Decimal.ofInteger n.toInt)
  | float x => some x
  | _ => none

/-- The text that a value is. -/
def text? : Value → Option String
  | text s => some s
  | _ => none

/-- The mapping that a value is. -/
def fields? : Value → Option (Dict Value)
  | map fields => some fields
  | _ => none

/-! ## Sameness

Two values are the same if they are of one kind and have the same parts.  Doubles are compared
as numbers, so that the two zeros are the same and what is no number differs from itself. -/

mutual

/-- Whether two values are the same. -/
def same : Value → Value → Bool
  | null, null => true
  | bool a, bool b => a == b
  | int a, int b => a == b
  | float a, float b => a == b
  | text a, text b => a == b
  | list a, list b => sameItems a b
  | map a, map b => sameFields a b
  | _, _ => false

/-- Whether two lists have the same items. -/
def sameItems : List Value → List Value → Bool
  | [], [] => true
  | a :: as, b :: bs => a.same b && sameItems as bs
  | _, _ => false

/-- Whether two mappings have the same keys, with the same value under each. -/
def sameFields {l₁ l₂ : Option String} : Entries Value l₁ → Entries Value l₂ → Bool
  | .nil, .nil => true
  | .cons k a _ as, .cons k' b _ bs => k == k' && a.same b && sameFields as bs
  | _, _ => false

end

instance : BEq Value := ⟨same⟩

/-! ## Display -/

mutual

/-- A value as text for people: a text without quotes, a double in full. -/
def display : Value → String
  | null => "null"
  | bool b => if b then "true" else "false"
  | int n => String.ofList (Decimal.intChars n.toInt)
  | float x => String.ofList (Decimal.fullChars x)
  | text s => s
  | list items => "[" ++ ", ".intercalate (displayItems items) ++ "]"
  | map fields => "\x7b" ++ ", ".intercalate (displayFields fields) ++ "\x7d"

/-- The displays of a list of values. -/
def displayItems : List Value → List String
  | [] => []
  | v :: vs => v.display :: displayItems vs

/-- The displays of the fields of a mapping, each with its key. -/
def displayFields {low : Option String} : Entries Value low → List String
  | .nil => []
  | .cons key v _ rest => (key ++ ": " ++ v.display) :: displayFields rest

end

/-- A value with the name of its kind, as error messages show what they found. -/
def described (v : Value) : String := v.display ++ " (" ++ v.kind ++ ")"

end Value

end Dataflow

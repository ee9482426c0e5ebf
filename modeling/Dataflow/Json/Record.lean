import Dataflow.Json.Basic

/-!
# Records in JSON

A record is written as an object, in any order and among other members, or as an array of its
fields in their order.  This file finds the fields; reading each of them is left to the
record.
-/

namespace Dataflow.Json

/-- A field of a record. -/
structure Field where
  /-- The names under which it may stand in an object. -/
  names : List String
  /-- Whether it may be missing at the end of an array. -/
  mayEnd : Bool

/-- The value of a field of an object, if there is one.  A field may stand there only once. -/
def member? (members : List (String × Json)) (field : Field) : Option (Option Json) :=
  match members.filter fun m => field.names.contains m.1 with
  | [] => some none
  | [m] => some (some m.2)
  | _ => none

/-- The values of the fields of an array, which has no further items. -/
def items? : List Field → List Json → Option (List (Option Json))
  | [], [] => some []
  | [], _ :: _ => none
  | field :: fields, [] => if field.mayEnd then (items? fields []).map (none :: ·) else none
  | _ :: fields, j :: rest => (items? fields rest).map (some j :: ·)

/-- The values of the fields of a record, in their order. -/
def fields? (fields : List Field) : Json → Option (List (Option Json))
  | object members => fields.mapM (member? members)
  | array items => items? fields items
  | _ => none

/-! ## Parts of records -/

/-- A text. -/
def text? : Json → Option String
  | text s => some s
  | _ => none

/-- The items of an array. -/
def array? : Json → Option (List Json)
  | array items => some items
  | _ => none

/-- An optional part: one that is missing or `null` is absent. -/
def optional? {α : Type} (read : Json → Option α) : Option Json → Option (Option α)
  | none | some null => some none
  | some j => (read j).map some

/-- A list that may be missing. -/
def listOrEmpty? {α : Type} (read : Json → Option α) : Option Json → Option (List α)
  | none => some []
  | some j => (array? j).bind fun items => items.mapM read

end Dataflow.Json

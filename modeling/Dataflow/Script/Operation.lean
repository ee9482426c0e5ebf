import Dataflow.Script.Fault
import Dataflow.Value.Json

/-!
# Operations of scripts

The operators on values.  Two integers are added, multiplied, divided and raised to powers
without rounding, and a result that does not fit 64 bits is a fault; with a double among the
operands all is done in doubles.  Comparisons are made in doubles as well, and so is the
equality of two numbers; the equality of anything else is that of values.
-/

namespace Dataflow.Script

/-- An integer as a value, if it fits 64 bits. -/
def exact (place : Place) (n : Int) : Except Fault Value :=
  if Value.fitsInt n then .ok (.int (Int64.ofInt n)) else .error (.overflow place)

/-- An integer as a value, if the operation has given one. -/
def fitted (place : Place) : Option Int64 → Except Fault Value
  | some n => .ok (.int n)
  | none => .error (.overflow place)

/-- A value as a double. -/
def numberAt (place : Place) (v : Value) : Except Fault Float :=
  match v.number? with
  | some x => .ok x
  | none => .error (.mismatch place .number v)

/-! ## Arithmetic -/

/-- The largest exponent of a power of integers. -/
def largestExponent : Nat := 0xFFFFFFFF

/-- A power of integers.  Above 63 only the parity of the exponent counts: the powers of 0, 1
and -1 depend on nothing else, and no other power fits 64 bits. -/
def integerPower (a : Int) (n : Nat) : Int := Int.pow a (if n < 64 then n else 64 + n % 2)

/-- Whether two integers can be divided: the divisor is not zero, and the quotient fits 64 bits. -/
def isDivisible (a b : Int64) : Bool := b != 0 && !(a == Int64.minValue && b == -1)

/-- Whether one of two integers is negative and the other is not. -/
def signsDiffer (a b : Int64) : Bool := decide (a < 0) != decide (b < 0)

/-- The quotient rounded down.  The machine truncates; where the signs differ and something is
left over, the floor is one less. -/
def floorQuotient? (a b : Int64) : Option Int64 :=
  if isDivisible a b then
    if a % b ≠ 0 ∧ signsDiffer a b then
      if Value.fitsInt ((a / b).toInt - 1) then some (a / b - 1) else none
    else some (a / b)
  else none

/-- The remainder that has the sign of the divisor.  The remainder of the machine has the sign of
the dividend; where the two differ, the divisor is added. -/
def floorRemainder? (a b : Int64) : Option Int64 :=
  if isDivisible a b then
    if a % b ≠ 0 ∧ signsDiffer (a % b) b then some (a % b + b) else some (a % b)
  else none

/-- Whether a value is the number zero.  No other integer is rounded to the double zero. -/
def isZero : Value → Bool
  | .int n => n == 0
  | .float x => x == 0.0
  | _ => false

namespace Arithmetic

/-- An operation on two integers.  The quotient and the remainder are those of the floor.
Division and negative powers leave the integers. -/
def ofInts? (op : Arithmetic) (a b : Int64) : Option (Except Fault Value) :=
  let place := Place.arithmetic op
  match op with
  | add => some (exact place (a.toInt + b.toInt))
  | subtract => some (exact place (a.toInt - b.toInt))
  | multiply => some (exact place (a.toInt * b.toInt))
  | divide => none
  | floorDivide => some (fitted place (floorQuotient? a b))
  | modulo => some (fitted place (floorRemainder? a b))
  | power =>
    if b < 0 then none
    else if b.toInt ≤ largestExponent then
      some (exact place (integerPower a.toInt b.toInt.toNat))
    else some (.error (.overflow place))

/-- An operation on two doubles. -/
def ofFloats (op : Arithmetic) (a b : Float) : Float :=
  match op with
  | add => a + b
  | subtract => a - b
  | multiply => a * b
  | divide => a / b
  | floorDivide => (a / b).floor
  | modulo => a - b * (a / b).floor
  | power => a.pow b

/-- An operation on two numbers. -/
def ofNumbers (op : Arithmetic) (left right : Value) : Except Fault Value := do
  let inDoubles := do
    let a ← numberAt (.arithmetic op) left
    let b ← numberAt (.arithmetic op) right
    return Value.float (op.ofFloats a b)
  match left, right with
  | .int a, .int b => (op.ofInts? a b).getD inDoubles
  | _, _ => inDoubles

/-- Whether an operation divides. -/
def divides : Arithmetic → Bool
  | divide | floorDivide | modulo => true
  | add | subtract | multiply | power => false

/-- An operation on two values.  Texts and lists are added by joining them.  Nothing can be
divided by zero; a quotient looks at its operands first. -/
def apply (op : Arithmetic) (left right : Value) : Except Fault Value :=
  match op, left, right with
  | add, .text a, .text b => .ok (.text (a ++ b))
  | add, .list a, .list b => .ok (.list (a ++ b))
  | divide, _, _ => do
    let result ← ofNumbers divide left right
    if isZero right then throw .divisionByZero
    return result
  | op, _, _ =>
    if op.divides && isZero right then .error .divisionByZero else op.ofNumbers left right

end Arithmetic

/-- The opposite of a number. -/
def negated : Value → Except Fault Value
  | .int n => exact .negation (-n.toInt)
  | .float x => .ok (.float (-x))
  | v => .error (.mismatch .negation .number v)

/-! ## Comparison -/

/-- The order of two doubles, if both are numbers. -/
def floatOrder? (a b : Float) : Option Ordering :=
  if a < b then some .lt else if a == b then some .eq else if b < a then some .gt else none

/-- Whether two values are equal: numbers of either kind by their size, all else by sameness. -/
def equals (left right : Value) : Bool :=
  match left.number?, right.number? with
  | some a, some b => a == b
  | _, _ => left.same right

namespace Comparison

/-- Whether a comparison holds of two things in the given order. -/
def holds (op : Comparison) (order : Ordering) : Bool :=
  match op with
  | equal => order.isEq
  | notEqual => order.isNe
  | greater => order.isGT
  | greaterEqual => order.isGE
  | less => order.isLT
  | lessEqual => order.isLE

/-- The order of two values: texts by their characters, all else as numbers. -/
def orderOf (op : Comparison) (left right : Value) : Except Fault Ordering :=
  match left, right with
  | .text a, .text b => .ok (compare a b)
  | _, _ => do
    let a ← numberAt (.comparison op) left
    let b ← numberAt (.comparison op) right
    match floatOrder? a b with
    | some order => return order
    | none => throw (.mismatch (.comparison op) .comparableNumber right)

/-- A comparison of two values. -/
def apply (op : Comparison) (left right : Value) : Except Fault Value :=
  match op with
  | equal => .ok (.bool (equals left right))
  | notEqual => .ok (.bool !(equals left right))
  | op => do return .bool (op.holds (← op.orderOf left right))

end Comparison

/-! ## Indexing -/

/-- The place that an index names among `size` items; a negative one counts from the end. -/
def resolve (size : Nat) (index : Int64) : Except Fault Nat :=
  let place := if index.toInt < 0 then index.toInt + size else index.toInt
  if place < 0 ∨ (size : Int) ≤ place then .error (.indexOutOfRange index) else .ok place.toNat

/-- The item that an index names. -/
def itemAt {α : Type} (items : List α) (index : Int64) : Except Fault α := do
  match items[← resolve items.length index]? with
  | some a => return a
  | none => throw (.indexOutOfRange index)

/-- The part of a value under an index: an item, a character, or the value of a key. -/
def indexed (target index : Value) : Except Fault Value :=
  match target, index with
  | .list items, .int i => itemAt items i
  | .text s, .int i => do return .text (String.singleton (← itemAt s.toList i))
  | .map fields, .text key =>
    match fields.find? key with
    | some v => .ok v
    | none => .error (.keyNotFound key)
  | _, _ => .error (.notIndexable target index)

end Dataflow.Script

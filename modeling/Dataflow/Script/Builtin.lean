import Dataflow.Decimal.Reading
import Dataflow.Script.Operation
import Dataflow.Text.Lines

/-!
# Builtin functions of scripts
-/

namespace Dataflow.Script

/-- A value as `str` and `print` write it: constants as the language spells them, all else as
values are displayed. -/
def displayText : Value → String
  | .null => "None"
  | .bool b => if b then "True" else "False"
  | v => v.display

/-! ## Rounding -/

/-- A double without its fraction. -/
def truncate (x : Float) : Float := if x < 0.0 then x.ceil else x.floor

/-- The nearest integral double; a half goes to the even neighbour. -/
def roundHalfEven (x : Float) : Float :=
  if (x - truncate x).abs == 0.5 then 2.0 * (x / 2.0).round else x.round

/-- `r` times the `n`-th power of `a` in double arithmetic, by repeated squaring. -/
def timesPower (r a : Float) (n : Nat) : Float :=
  let r := if n % 2 = 1 then r * a else r
  if n / 2 = 0 then r else timesPower r (a * a) (n / 2)
termination_by n
decreasing_by omega

/-- A power of ten in double arithmetic; a negative one is the reciprocal of the positive. -/
def tenTo (n : Int) : Float :=
  if n < 0 then 1.0 / timesPower 1.0 10.0 n.natAbs else timesPower 1.0 10.0 n.natAbs

/-- A double rounded to a number of decimal places, of which 32 bits count. -/
def roundTo (places : Int64) (x : Float) : Float :=
  let factor := tenTo (places.toInt.bmod 0x100000000)
  roundHalfEven (x * factor) / factor

/-! ## Extremes and sums -/

/-- The first item of which no later one is better, with `best` in front of the items. -/
def bestFrom (b : Builtin) (better : Float → Float → Bool) (best : Value) (size : Float) :
    List Value → Except Fault Value
  | [] => .ok best
  | v :: rest => do
    let x ← numberAt (.builtin b) v
    if better x size then bestFrom b better v x rest else bestFrom b better best size rest

/-- The best of some items. -/
def bestOf (b : Builtin) (better : Float → Float → Bool) : List Value → Except Fault Value
  | [] => .error (.argumentCount b .some)
  | v :: rest => do bestFrom b better v (← numberAt (.builtin b) v) rest

/-- The items among which an extreme is looked for: those of a list, or the arguments. -/
def candidates (b : Builtin) : List Value → Except Fault (List Value)
  | [.list items] => .ok items
  | [v] => .error (.mismatch (.builtin b) .list v)
  | values => .ok values

/-- The sum of two numbers: exact for two integers, and otherwise in doubles. -/
def addTo (total item : Value) : Except Fault Value :=
  match total, item with
  | .int a, .int b => exact (.builtin .sum) (a.toInt + b.toInt)
  | _, _ => do
    let a ← numberAt (.builtin .sum) total
    let b ← numberAt (.builtin .sum) item
    return .float (a + b)

/-! ## Functions of one value -/

/-- The magnitude of a number. -/
def absolute : Value → Except Fault Value
  | .int n => exact (.builtin .abs) n.toInt.natAbs
  | .float x => .ok (.float x.abs)
  | v => .error (.mismatch (.builtin .abs) .number v)

/-- The number of characters, items or keys. -/
def sizeOf : Value → Except Fault Value
  | .text s => .ok (.int (Int64.ofNat s.toList.length))
  | .list items => .ok (.int (Int64.ofNat items.length))
  | .map fields => .ok (.int (Int64.ofNat fields.size))
  | v => .error (.mismatch (.builtin .len) .container v)

/-- A value as an integer; a double loses its fraction, and a text has to spell one. -/
def toInt : Value → Except Fault Value
  | .int n => .ok (.int n)
  | .float x => .ok (.int (Decimal.toInteger x))
  | .bool b => .ok (.int (if b then 1 else 0))
  | .text s =>
    match Decimal.integer? (Text.trim s.toList) with
    | some n => if Value.fitsInt n then .ok (.int (Int64.ofInt n)) else .error (.noInteger s)
    | none => .error (.noInteger s)
  | v => .error (.mismatch (.builtin .int) .numberOrText v)

/-- A value as a double; a text has to spell one. -/
def toFloat : Value → Except Fault Value
  | .text s =>
    match Decimal.real? (Text.trim s.toList) with
    | some x => .ok (.float x)
    | none => .error (.noNumber s)
  | .bool b => .ok (.float (if b then 1.0 else 0.0))
  | v =>
    match v.number? with
    | some x => .ok (.float x)
    | none => .error (.mismatch (.builtin .float) .numberOrText v)

/-- The sum of the items of a list. -/
def total : Value → Except Fault Value
  | .list items => items.foldlM addTo (.int 0)
  | v => .error (.mismatch (.builtin .sum) .list v)

/-- A number rounded to an integer, or to a number of places, which is then a double. -/
def rounded (number : Value) (places : Option Value) : Except Fault Value := do
  let x ← numberAt (.builtin .round) number
  match places with
  | none => return .int (Decimal.toInteger (roundHalfEven x))
  | some (.int n) => return .float (roundTo n x)
  | some v => throw (.mismatch (.builtin .round) .integer v)

namespace Builtin

/-- The only argument of a function. -/
def only (b : Builtin) : List Value → Except Fault Value
  | [v] => .ok v
  | _ => .error (.argumentCount b .one)

/-- The result of a builtin function. -/
def result (b : Builtin) (args : List Value) : Except Fault Value :=
  match b with
  | abs => do absolute (← b.only args)
  | len => do sizeOf (← b.only args)
  | str => do return .text (displayText (← b.only args))
  | int => do toInt (← b.only args)
  | float => do toFloat (← b.only args)
  | round =>
    match args with
    | [x] => rounded x none
    | [x, places] => rounded x (some places)
    | _ => .error (.argumentCount b .oneOrTwo)
  | min => do bestOf b (fun x y => x < y) (← candidates b args)
  | max => do bestOf b (fun x y => y < x) (← candidates b args)
  | sum => do total (← b.only args)
  | print => .ok .null

/-- The lines that a builtin function prints. -/
def printed (b : Builtin) (args : List Value) : List String :=
  match b with
  | print => [" ".intercalate (args.map displayText)]
  | _ => []

end Builtin

end Dataflow.Script

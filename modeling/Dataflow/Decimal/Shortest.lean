import Dataflow.Decimal.Binary

/-!
# The shortest decimal that reads back

Every decimal inside the interval of reals that round to a double reads back as that double.
`shortest` walks the decimal grids from coarse to fine and takes the first one that has a
point in the interval; only the two grid points next to the value have to be tried, because
with any point of the grid one of them is inside as well.
-/

namespace Dataflow.Decimal

/-- The number `digits * 10 ^ exponent`. -/
structure Scientific where
  digits : Nat
  exponent : Int
deriving DecidableEq, Repr

namespace Scientific

/-- The digits as characters. -/
def digitChars (d : Scientific) : List Char := Nat.toDigits 10 d.digits

/-- The exponent of the first digit, as in `d.ddd * 10 ^ order`. -/
def order (d : Scientific) : Int := d.exponent + d.digitChars.length - 1

end Scientific

/-- Which of two points of a grid wins when both are equally near. -/
inductive Tie where
  | even
  | up
deriving DecidableEq, Repr

/-- The reals that round to a double, all three numbers in quarters of its last place. -/
structure Interval where
  low : Nat
  value : Nat
  high : Nat
  /-- Whether the ends round to the double as well. -/
  closed : Bool

/-- The interval of a double.  Below a power of two the neighbour is twice as near, except at
the subnormal end; the ends belong to the double with the even mantissa. -/
def Binary.interval (b : Binary) : Interval :=
  let narrow := b.mantissa = exponentWeight ∧ b.exponent ≠ leastExponent
  { low := 4 * b.mantissa - (if narrow then 1 else 2)
    value := 4 * b.mantissa
    high := 4 * b.mantissa + 2
    closed := b.mantissa % 2 == 0 }

/-- Whether `point`, in the unit in which the interval is given, lies in it. -/
def Interval.contains (i : Interval) (unit point : Nat) : Bool :=
  if i.closed then i.low * unit ≤ point && point ≤ i.high * unit
  else i.low * unit < point && point < i.high * unit

/-- The point of the grid of `10 ^ e` that is nearest to the value among those in the
interval, which is counted in `2 ^ q`. -/
def Interval.onGrid (i : Interval) (tie : Tie) (q e : Int) : Option Nat :=
  let unit := Nat.pow 2 q.toNat * Nat.pow 10 (-e).toNat
  let step := Nat.pow 10 e.toNat * Nat.pow 2 (-q).toNat
  let value := i.value * unit
  let below := value / step
  let above := below + 1
  match i.contains unit (below * step), i.contains unit (above * step) with
  | true, false => some below
  | false, true => some above
  | false, false => none
  | true, true =>
    let toBelow := value - below * step
    let toAbove := above * step - value
    if toBelow < toAbove then some below
    else if toAbove < toBelow then some above
    else if tie = .even ∧ below % 2 = 0 then some below else some above

/-- The first of `n` grids, each ten times as fine as the one before, with a point in the
interval. -/
def Interval.firstGrid (i : Interval) (tie : Tie) (q : Int) : Int → Nat → Scientific
  | e, 0 => ⟨0, e⟩
  | e, n + 1 =>
    match i.onGrid tie q e with
    | some d => ⟨d, e⟩
    | none => i.firstGrid tie q (e - 1) n

/-- The decimal with the fewest digits that reads back as the given positive double, and of
those the nearest to it.  The search starts above the value: a number of `k` binary digits
has no more than `k * 30103 / 100000 + 1` decimal ones, and seventeen digits always suffice. -/
def Binary.shortest (tie : Tie) (b : Binary) : Scientific :=
  let top := (b.exponent + (b.mantissa.log2 + 1)) * 30103 / 100000 + 1
  b.interval.firstGrid tie (b.exponent - 2) top 24

end Dataflow.Decimal

/-!
# Doubles as exact numbers

A finite double is an integer times a power of two.  This file reads that integer and that
power off the bits, so that the rest of the library can compute with the exact value:
whether it is integral, what its integral part is, and which integers it lies between.
-/

namespace Dataflow.Decimal

/-- A finite double `± mantissa * 2 ^ exponent`. -/
structure Binary where
  /-- Whether the sign bit is set; it is for the negative zero, too. -/
  negative : Bool
  mantissa : Nat
  exponent : Int
deriving DecidableEq, Repr

/-- The three kinds of doubles. -/
inductive Double where
  | nan
  | infinite (negative : Bool)
  | finite (value : Binary)
deriving DecidableEq, Repr

/-- The weight of the first bit behind the sixty-three lower ones, which is the sign. -/
def signWeight : Nat := 0x8000000000000000

/-- The weight of the first of the eleven bits of the exponent. -/
def exponentWeight : Nat := 0x10000000000000

/-- The exponent of the subnormal doubles, the least there is. -/
def leastExponent : Int := -1074

/-- What the bits of a double say. -/
def view (x : Float) : Double :=
  let bits := x.toBits.toNat
  let negative := bits / signWeight == 1
  let biased := bits / exponentWeight % 2048
  let fraction := bits % exponentWeight
  if biased = 2047 then
    if fraction = 0 then .infinite negative else .nan
  else if biased = 0 then
    .finite ⟨negative, fraction, leastExponent⟩
  else
    .finite ⟨negative, exponentWeight + fraction, Int.ofNat biased - 1075⟩

namespace Binary

/-- The part of the magnitude in front of the point. -/
def whole (b : Binary) : Nat :=
  match b.exponent with
  | .ofNat e => b.mantissa * Nat.pow 2 e
  | .negSucc e => b.mantissa / Nat.pow 2 (e + 1)

/-- Whether nothing stands behind the point. -/
def isIntegral (b : Binary) : Bool :=
  match b.exponent with
  | .ofNat _ => true
  | .negSucc e => b.mantissa % Nat.pow 2 (e + 1) == 0

/-- The integral part with its sign. -/
def truncated (b : Binary) : Int := if b.negative then -b.whole else b.whole

end Binary

/-- The integer of 64 bits nearest to a double that is rounded toward zero: doubles beyond the
range go to its ends, and what is no number goes to zero. -/
def toInteger (x : Float) : Int64 :=
  match view x with
  | .nan => 0
  | .infinite negative => if negative then Int64.minValue else Int64.maxValue
  | .finite b => Int64.ofIntClamp b.truncated

/-- The double nearest to an integer. -/
def ofInteger (n : Int) : Float :=
  match n with
  | .ofNat m => Float.ofScientific m false 0
  | .negSucc m => -Float.ofScientific (m + 1) false 0

end Dataflow.Decimal

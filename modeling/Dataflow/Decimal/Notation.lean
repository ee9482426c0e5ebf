import Dataflow.Decimal.Shortest

/-!
# Decimal notation

How a double is written, and how decimal text is read.  The digits are settled by
`Binary.shortest`; what is left to a format is where positional notation ends and how the
rest looks, and that is a `Layout`.  Two readers are given: `nearest` rounds the exact
decimal once, `scaled` keeps the leading digits that fit a word and scales them.
-/

namespace Dataflow.Decimal

/-! ## Writing -/

/-- The choices of a format for the shortest digits of a finite number. -/
structure Layout where
  /-- The orders of magnitude that are written without an exponent. -/
  positional : Int → Bool
  /-- Whether a number without a fraction gets `.0`. -/
  pointZero : Bool
  /-- The last digit when two are equally near. -/
  tie : Tie

/-- An integer in decimal, with a minus sign if it is negative. -/
def intChars (n : Int) : List Char :=
  match n with
  | .ofNat m => Nat.toDigits 10 m
  | .negSucc m => '-' :: Nat.toDigits 10 (m + 1)

/-- Digits with a point after the digit of order zero, filled up with zeros. -/
def positionalChars (pointZero : Bool) (d : Scientific) : List Char :=
  let digits := d.digitChars
  match d.exponent with
  | .ofNat e => digits ++ List.replicate e '0' ++ (if pointZero then ['.', '0'] else [])
  | .negSucc e =>
    let places := e + 1
    if digits.length ≤ places then
      ['0', '.'] ++ List.replicate (places - digits.length) '0' ++ digits
    else
      digits.take (digits.length - places) ++ '.' :: digits.drop (digits.length - places)

/-- One digit, the others behind a point, and the order after `e` with its sign. -/
def exponentChars (d : Scientific) : List Char :=
  let order := if 0 ≤ d.order then '+' :: intChars d.order else intChars d.order
  match d.digitChars with
  | [] => []
  | [c] => c :: 'e' :: order
  | c :: more => c :: '.' :: more ++ 'e' :: order

/-- A decimal in the given layout. -/
def Layout.chars (layout : Layout) (d : Scientific) : List Char :=
  if layout.positional d.order then positionalChars layout.pointZero d else exponentChars d

/-- The sign and the magnitude of a finite double in the given layout. -/
def Layout.write (layout : Layout) (b : Binary) : List Char :=
  let d := if b.mantissa = 0 then ⟨0, 0⟩ else b.shortest layout.tie
  if b.negative then '-' :: layout.chars d else layout.chars d

/-- All digits of an integral double, and `.0`. -/
def integralChars (b : Binary) : List Char :=
  let digits := Nat.toDigits 10 b.whole ++ ['.', '0']
  if b.negative then '-' :: digits else digits

/-- No exponent at any size, and no `.0`; a tie goes up. -/
def plain : Layout := ⟨fun _ => true, false, .up⟩

/-- A double in full: without exponent, an integral one with all its digits and `.0`, and
names for what is no number. -/
def fullChars (x : Float) : List Char :=
  match view x with
  | .nan => "NaN".toList
  | .infinite negative => if negative then "-inf".toList else "inf".toList
  | .finite b => if b.isIntegral then integralChars b else plain.write b

/-- A double by its shortest digits, without exponent and without `.0`. -/
def plainChars (x : Float) : List Char :=
  match view x with
  | .nan => "NaN".toList
  | .infinite negative => if negative then "-inf".toList else "inf".toList
  | .finite b => plain.write b

/-! ## Reading -/

/-- The value of a run of digits. -/
def digitsValue (cs : List Char) : Nat := Nat.ofDigitChars 10 cs 0

/-- The double of a magnitude with a sign. -/
def signed (negative : Bool) (x : Float) : Float := if negative then -x else x

/-- The double nearest to `m * 10 ^ e`.  Numbers with a first digit above order 309 or below
order -330 are settled by their size. -/
def nearest (m : Nat) (e : Int) : Float :=
  let size := e + (Nat.toDigits 10 m).length
  if m = 0 || size < -330 then 0.0
  else if 310 < size then 1.0 / 0.0
  else Float.ofScientific m (e < 0) e.natAbs

/-- The double nearest to `10 ^ n`, for `n` up to 308. -/
def powerOfTen (n : Nat) : Float := Float.ofScientific 1 false n

/-- A magnitude times a power of ten in double arithmetic: one multiplication or division by
a power up to `10 ^ 308`, after as many divisions by `10 ^ 308` as a small number needs.
Nothing if the result is too large. -/
def scaleBy (x : Float) (e : Int) : Option Float :=
  if 0 ≤ e then
    if e ≤ 308 then
      let y := x * powerOfTen e.toNat
      if y.isInf then none else some y
    else if x == 0.0 then some x else none
  else if -308 ≤ e then some (x / powerOfTen e.natAbs)
  else if x == 0.0 then some x
  else scaleBy (x / powerOfTen 308) (e + 308)
termination_by (-e).toNat

/-- The largest number of 64 bits. -/
def largestWord : Nat := 0xFFFFFFFFFFFFFFFF

/-- The digits that fit a word, from the left, and how many are left over. -/
def leadingDigits : Nat → List Char → Nat × List Char
  | acc, [] => (acc, [])
  | acc, c :: cs =>
    let next := 10 * acc + (c.toNat - '0'.toNat)
    if next ≤ largestWord then leadingDigits next cs else (acc, c :: cs)

/-- The double of a decimal with the given digits before and after the point and the given
exponent: the leading digits that fit a word, scaled.  Nothing if the result is too large. -/
def scaled (whole fraction : List Char) (exponent : Int) : Option Float :=
  match leadingDigits 0 whole with
  | (m, []) =>
    let (m, rest) := leadingDigits m fraction
    scaleBy (Float.ofScientific m false 0) (exponent - (fraction.length - rest.length : Nat))
  | (m, left) =>
    let (m, rest) := leadingDigits m fraction
    scaleBy (Float.ofScientific m false 0)
      (exponent + left.length - (fraction.length - rest.length : Nat))

end Dataflow.Decimal

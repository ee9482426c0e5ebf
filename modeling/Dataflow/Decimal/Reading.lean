import Dataflow.Decimal.Notation
import Dataflow.Text.Classes

/-!
# Reading numbers from text

Two readers for texts that people write.  `integer?` takes an integer with an optional sign;
`real?` takes a decimal with an optional sign, point and exponent, of which the point may also
come first or last, and the names of infinity and of what is no number in any case of letters.
-/

namespace Dataflow.Decimal

/-- Whether a minus sign stands at the front, and the text after the sign. -/
def splitSign : List Char → Bool × List Char
  | '-' :: cs => (true, cs)
  | '+' :: cs => (false, cs)
  | cs => (false, cs)

/-- An integer, of at least one digit. -/
def integer? (cs : List Char) : Option Int :=
  let (negative, digits) := splitSign cs
  if digits.isEmpty || !digits.all Text.isDigit then none
  else if negative then some (-(digitsValue digits : Int)) else some (digitsValue digits)

/-- Infinity, or what is no number, by its name. -/
def named? (cs : List Char) : Option Float :=
  let name := cs.map Char.toLower
  if name = "nan".toList then some (0.0 / 0.0)
  else if name = "inf".toList ∨ name = "infinity".toList then some (1.0 / 0.0)
  else none

/-- The exponent of a decimal, zero if nothing is left of the text. -/
def exponent? : List Char → Option Int
  | [] => some 0
  | c :: cs => if c = 'e' ∨ c = 'E' then integer? cs else none

/-- A decimal without a sign, with a digit before or after its point. -/
def numeral? (cs : List Char) : Option Float :=
  let whole := cs.takeWhile Text.isDigit
  let (fraction, rest) := match cs.dropWhile Text.isDigit with
    | '.' :: r => (r.takeWhile Text.isDigit, r.dropWhile Text.isDigit)
    | r => ([], r)
  if whole.isEmpty && fraction.isEmpty then none
  else (exponent? rest).map fun e => nearest (digitsValue (whole ++ fraction)) (e - fraction.length)

/-- A number, rounded to the nearest double. -/
def real? (cs : List Char) : Option Float :=
  let (negative, magnitude) := splitSign cs
  (numeral? magnitude <|> named? magnitude).map (signed negative)

end Dataflow.Decimal

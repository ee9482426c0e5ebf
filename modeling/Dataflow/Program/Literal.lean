import Dataflow.Value.Basic

/-!
# Values as Python literals

How a value is written in a generated program.  A text stands between single quotes, or
between double ones if it has a single quote in it and no double one; nothing that is a
control character of ASCII is left in it.
-/

namespace Dataflow.Program

/-- The quote around a text. -/
def quoteFor (cs : List Char) : Char :=
  if cs.contains '\'' && !cs.contains '"' then '"' else '\''

/-- The form of a character between the given quotes. -/
def escapeChar (quote c : Char) : List Char :=
  match c with
  | '\\' => ['\\', '\\']
  | '\n' => ['\\', 'n']
  | '\r' => ['\\', 'r']
  | '\t' => ['\\', 't']
  | c =>
    if c = quote then ['\\', c]
    else if c.toNat < 32 || c.toNat = 127 then
      ['\\', 'x', Nat.digitChar (c.toNat / 16), Nat.digitChar (c.toNat % 16)]
    else [c]

/-- A text between quotes. -/
def textChars (s : String) : List Char :=
  let quote := quoteFor s.toList
  quote :: s.toList.flatMap (escapeChar quote) ++ [quote]

/-- A double.  What is no finite number is made from its name. -/
def floatChars (x : Float) : List Char :=
  match Decimal.view x with
  | .nan => "float('nan')".toList
  | .infinite negative => if negative then "-float('inf')".toList else "float('inf')".toList
  | .finite _ => Decimal.fullChars x

mutual

/-- The characters of a literal. -/
def literalChars : Value → List Char
  | .null => "None".toList
  | .bool b => if b then "True".toList else "False".toList
  | .int n => Decimal.intChars n.toInt
  | .float x => floatChars x
  | .text s => textChars s
  | .list items => '[' :: literalItems items ++ [']']
  | .map fields => '\x7b' :: literalFields fields ++ ['\x7d']

/-- Items with commas between them. -/
def literalItems : List Value → List Char
  | [] => []
  | [v] => literalChars v
  | v :: rest => literalChars v ++ ',' :: ' ' :: literalItems rest

/-- Keys and values with commas between them. -/
def literalFields {low : Option String} : Entries Value low → List Char
  | .nil => []
  | .cons key v _ .nil => textChars key ++ ':' :: ' ' :: literalChars v
  | .cons key v _ rest =>
    textChars key ++ ':' :: ' ' :: literalChars v ++ ',' :: ' ' :: literalFields rest

end

/-- A value as a literal. -/
def literal (v : Value) : String := String.ofList (literalChars v)

/-- A text as a literal. -/
def textLiteral (s : String) : String := String.ofList (textChars s)

end Dataflow.Program

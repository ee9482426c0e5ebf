import Dataflow.Decimal.Notation

/-!
# JSON trees

The tree of a JSON text, and how a tree is written: `compact` on one line, `pretty` with one
item a line.  A member list keeps its order and its repetitions; what a repetition means is
for the reader of the tree to say.
-/

namespace Dataflow

/-- A JSON tree. -/
inductive Json where
  | null
  | bool (b : Bool)
  /-- An integer between `-2^63` and `2^64 - 1`. -/
  | int (n : Int)
  /-- Any other number. -/
  | float (x : Float)
  | text (s : String)
  | array (items : List Json)
  | object (members : List (String × Json))
  /-- A part that is grammatical but denotes nothing: a number beyond the doubles, a text with
  half of a surrogate pair, an object with such a key.  It can only be skipped. -/
  | malformed

namespace Json

instance : Inhabited Json := ⟨null⟩

/-! ## Depth -/

mutual

/-- Whether the tree denotes a value and is nested no deeper than the given number of levels. -/
def isReadable : Nat → Json → Bool
  | _, null | _, bool _ | _, int _ | _, float _ | _, text _ => true
  | _, malformed | 0, array _ | 0, object _ => false
  | levels + 1, array items => areReadable levels items
  | levels + 1, object members => membersReadable levels members

/-- `isReadable` for every item of a list. -/
def areReadable (levels : Nat) : List Json → Bool
  | [] => true
  | j :: rest => isReadable levels j && areReadable levels rest

/-- `isReadable` for every value of a member list. -/
def membersReadable (levels : Nat) : List (String × Json) → Bool
  | [] => true
  | (_, j) :: rest => isReadable levels j && membersReadable levels rest

end

/-- The deepest nesting of a text that can be read. -/
def maxDepth : Nat := 127

/-! ## Writing -/

/-- Numbers are written with the shortest digits and `.0`, between `1e-5` and `1e16` without
exponent; a tie goes to the even digit. -/
def numberLayout : Decimal.Layout := ⟨fun order => -5 ≤ order && order < 16, true, .even⟩

/-- A double as a JSON number; what is no finite number becomes `null`. -/
def floatChars (x : Float) : List Char :=
  match Decimal.view x with
  | .finite b => numberLayout.write b
  | _ => "null".toList

/-- The lower-case hexadecimal digit of a number below 16. -/
def hexDigit (n : Nat) : Char := Nat.digitChar n

/-- The form of a character inside a JSON text. -/
def escapeChar (c : Char) : List Char :=
  match c with
  | '"' => ['\\', '"']
  | '\\' => ['\\', '\\']
  | '\x08' => ['\\', 'b']
  | '\x0c' => ['\\', 'f']
  | '\n' => ['\\', 'n']
  | '\r' => ['\\', 'r']
  | '\t' => ['\\', 't']
  | c =>
    if c.toNat < 32 then ['\\', 'u', '0', '0', hexDigit (c.toNat / 16), hexDigit (c.toNat % 16)]
    else [c]

/-- A text between double quotes, with the escapes it needs. -/
def textChars (s : String) : List Char := '"' :: s.toList.flatMap escapeChar ++ ['"']

mutual

/-- A tree on one line, without blanks. -/
def compactChars : Json → List Char
  | null | malformed => "null".toList
  | bool b => if b then "true".toList else "false".toList
  | int n => Decimal.intChars n
  | float x => floatChars x
  | text s => textChars s
  | array items => '[' :: compactItems items
  | object members => '\x7b' :: compactMembers members

/-- Items with commas between them, and the closing bracket. -/
def compactItems : List Json → List Char
  | [] => [']']
  | [j] => compactChars j ++ [']']
  | j :: rest => compactChars j ++ ',' :: compactItems rest

/-- Members with commas between them, and the closing brace. -/
def compactMembers : List (String × Json) → List Char
  | [] => ['\x7d']
  | [(key, j)] => textChars key ++ ':' :: compactChars j ++ ['\x7d']
  | (key, j) :: rest => textChars key ++ ':' :: compactChars j ++ ',' :: compactMembers rest

end

/-- A tree on one line. -/
def compact (j : Json) : String := String.ofList j.compactChars

/-- A line feed and two spaces for each level. -/
def newline (level : Nat) : List Char := '\n' :: List.replicate (2 * level) ' '

mutual

/-- A tree with one item or member a line, at the given level. -/
def prettyChars (level : Nat) : Json → List Char
  | array (j :: rest) =>
    '[' :: newline (level + 1) ++ prettyChars (level + 1) j ++ prettyItems level rest
  | object ((key, j) :: rest) =>
    '\x7b' :: newline (level + 1) ++ textChars key ++ ':' :: ' ' :: prettyChars (level + 1) j
      ++ prettyMembers level rest
  | null => "null".toList
  | malformed => "null".toList
  | bool b => if b then "true".toList else "false".toList
  | int n => Decimal.intChars n
  | float x => floatChars x
  | text s => textChars s
  | array [] => ['[', ']']
  | object [] => ['\x7b', '\x7d']

/-- The items after the first one, and the closing bracket. -/
def prettyItems (level : Nat) : List Json → List Char
  | [] => newline level ++ [']']
  | j :: rest => ',' :: newline (level + 1) ++ prettyChars (level + 1) j ++ prettyItems level rest

/-- The members after the first one, and the closing brace. -/
def prettyMembers (level : Nat) : List (String × Json) → List Char
  | [] => newline level ++ ['\x7d']
  | (key, j) :: rest =>
    ',' :: newline (level + 1) ++ textChars key ++ ':' :: ' ' :: prettyChars (level + 1) j
      ++ prettyMembers level rest

end

/-- A tree with one item or member a line, indented by two spaces a level. -/
def pretty (j : Json) : String := String.ofList (prettyChars 0 j)

end Json

end Dataflow

import Dataflow.Text.Classes

/-!
# Lines of a text

A text is a list of characters here, so that every function is a recursion on it.  This file
cuts a text into lines, trims blanks, measures and drops prefixes in bytes of UTF-8, and
removes the common margin of a block of lines (`dedent`).
-/

namespace Dataflow.Text

/-! ## Cutting and joining -/

/-- The lines of a text.  A line ends with a line feed, or with a carriage return and a line
feed; the end of the last line may be missing, and a lone carriage return ends no line. -/
def lines : List Char → List (List Char)
  | [] => []
  | '\n' :: rest => [] :: lines rest
  | '\r' :: '\n' :: rest => [] :: lines rest
  | c :: rest =>
    match lines rest with
    | [] => [[c]]
    | line :: more => (c :: line) :: more

/-- The lines with a line feed between any two of them. -/
def joinLines (ls : List (List Char)) : List Char := List.intercalate ['\n'] ls

/-- The parts with a separator between any two of them. -/
def joinWith (separator : String) (parts : List String) : String :=
  separator.intercalate parts

/-! ## Blanks -/

/-- The text without its leading blanks. -/
def trimStart (cs : List Char) : List Char := cs.dropWhile isBlank

/-- The text without its trailing blanks. -/
def trimEnd (cs : List Char) : List Char := (cs.reverse.dropWhile isBlank).reverse

/-- The text without blanks at either end. -/
def trim (cs : List Char) : List Char := trimEnd (trimStart cs)

/-! ## Bytes -/

/-- The number of bytes of a text in UTF-8. -/
def byteLength : List Char → Nat
  | [] => 0
  | c :: cs => c.utf8Size + byteLength cs

/-- What follows the first `n` bytes of a text, if they end where a character ends. -/
def dropBytes? : Nat → List Char → Option (List Char)
  | 0, cs => some cs
  | _ + 1, [] => none
  | n + 1, c :: cs => if c.utf8Size ≤ n + 1 then dropBytes? (n + 1 - c.utf8Size) cs else none

/-! ## Margins -/

/-- The width of the leading blanks of a line, in bytes. -/
def indentBytes (line : List Char) : Nat := byteLength (line.takeWhile isBlank)

/-- The least indentation among the lines that are not empty. -/
def margin (ls : List (List Char)) : Nat :=
  ((ls.filter fun l => !l.isEmpty).map indentBytes).min?.getD 0

/-- A line without the margin.  A line that is shorter, or in which the margin ends inside a
character, loses all its leading blanks instead. -/
def withoutMargin (width : Nat) (line : List Char) : List Char :=
  (dropBytes? width line).getD (trimStart line)

/-- The lines without the empty ones at either end. -/
def dropOuterEmpty (ls : List (List Char)) : List (List Char) :=
  ((ls.reverse.dropWhile List.isEmpty).reverse).dropWhile List.isEmpty

/-- A block of text with its common margin, the blanks at line ends and the empty lines around
it removed. -/
def dedent (cs : List Char) : List Char :=
  let trimmed := (lines cs).map trimEnd
  joinLines (dropOuterEmpty (trimmed.map (withoutMargin (margin trimmed))))

end Dataflow.Text

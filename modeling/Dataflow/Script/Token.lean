import Dataflow.Decimal.Notation
import Dataflow.Text.Lines

/-!
# Tokens of the script language

A script is read line by line.  A line becomes its tokens and its indentation; lines without
tokens are left out, and a comment runs to the end of its line.
-/

namespace Dataflow.Script

/-- The signs of the language. -/
inductive Symbol where
  | power
  | floorDivide
  | equal
  | notEqual
  | lessEqual
  | greaterEqual
  | plus
  | minus
  | times
  | divide
  | modulo
  | less
  | greater
  | assign
  | openParen
  | closeParen
  | openBracket
  | closeBracket
  | openBrace
  | closeBrace
  | comma
  | colon
  | point
deriving DecidableEq, Repr

/-- How a sign is written. -/
def Symbol.text : Symbol → String
  | power => "**"
  | floorDivide => "//"
  | equal => "=="
  | notEqual => "!="
  | lessEqual => "<="
  | greaterEqual => ">="
  | plus => "+"
  | minus => "-"
  | times => "*"
  | divide => "/"
  | modulo => "%"
  | less => "<"
  | greater => ">"
  | assign => "="
  | openParen => "("
  | closeParen => ")"
  | openBracket => "["
  | closeBracket => "]"
  | openBrace => "\x7b"
  | closeBrace => "\x7d"
  | comma => ","
  | colon => ":"
  | point => "."

/-- The sign of two characters. -/
def Symbol.ofTwo? : Char → Char → Option Symbol
  | '*', '*' => some power
  | '/', '/' => some floorDivide
  | '=', '=' => some equal
  | '!', '=' => some notEqual
  | '<', '=' => some lessEqual
  | '>', '=' => some greaterEqual
  | _, _ => none

/-- The sign of one character. -/
def Symbol.ofOne? : Char → Option Symbol
  | '+' => some plus
  | '-' => some minus
  | '*' => some times
  | '/' => some divide
  | '%' => some modulo
  | '<' => some less
  | '>' => some greater
  | '=' => some assign
  | '(' => some openParen
  | ')' => some closeParen
  | '[' => some openBracket
  | ']' => some closeBracket
  | '\x7b' => some openBrace
  | '\x7d' => some closeBrace
  | ',' => some comma
  | ':' => some colon
  | '.' => some point
  | _ => none

/-- A token.  Keywords are words. -/
inductive Token where
  | int (n : Int64)
  | float (x : Float)
  | text (s : String)
  | word (name : String)
  | symbol (s : Symbol)
deriving DecidableEq

/-- A token as messages show it. -/
def Token.described : Token → String
  | int n => String.ofList (Decimal.intChars n.toInt)
  | float x => String.ofList (Decimal.plainChars x)
  | text s => "'" ++ s ++ "'"
  | word name => name
  | symbol s => "'" ++ s.text ++ "'"

/-! ## Errors -/

/-- What the language wants at a place. -/
inductive Expected where
  | definition
  | sign (s : Symbol)
  | identifier
  | expression
  | callable
  | endOfLine
deriving DecidableEq, Repr

/-- What is wanted, in words. -/
def Expected.described : Expected → String
  | definition => "'def'"
  | sign s => "'" ++ s.text ++ "'"
  | identifier => "an identifier"
  | expression => "an expression"
  | callable => "a callable name"
  | endOfLine => "end of line"

/-- Why a text is no script, or has not the function that is wanted. -/
inductive ScriptError where
  | unexpectedChar (line : Nat) (found : Char)
  | unterminatedText (line : Nat)
  /-- Another token than is wanted, or none, which is the end of the line. -/
  | unexpectedToken (line : Nat) (expected : Expected) (found : Option Token)
  | functionNotFound (name : String)
deriving DecidableEq

/-- The error in words. -/
def ScriptError.message : ScriptError → String
  | unexpectedChar line found =>
    "line " ++ toString line ++ ": unexpected character '" ++ found.toString ++ "'"
  | unterminatedText line => "line " ++ toString line ++ ": unterminated string literal"
  | unexpectedToken line expected found =>
    let found := match found with
      | some t => t.described
      | none => "end of line"
    "line " ++ toString line ++ ": expected " ++ expected.described ++ ", found " ++ found
  | functionNotFound name => "function '" ++ name ++ "' is not defined in the source"

/-! ## Scanning one token -/

/-- The rest of a text after a token that starts with a character in front of `cs`. -/
abbrev After (cs : List Char) : Type := { r : List Char // r.length ≤ cs.length }

/-- The whole of a text. -/
def After.all (cs : List Char) : After cs := ⟨cs, Nat.le_refl _⟩

/-- The rest of a text behind a character that was read before it. -/
def After.behind (c : Char) {cs : List Char} (r : After cs) : After (c :: cs) :=
  ⟨r.1, Nat.le_succ_of_le r.2⟩

/-- What is left of a text after its first characters of a class. -/
def dropClass (p : Char → Bool) (cs : List Char) : After cs :=
  ⟨cs.dropWhile p, (List.dropWhile_sublist p).length_le⟩

/-- The characters after the first one of a name. -/
def isWordChar (c : Char) : Bool := Text.isLetterOrNumber c || c == '_'

/-- The digits of an integer, which underscores may divide. -/
def isDigitOrMark (c : Char) : Bool := Text.isDigit c || c == '_'

/-- The digits of a fraction, and what follows them.  A point without a digit after it is no
part of the number. -/
def scanFraction (cs : List Char) : Option (List Char) × After cs :=
  match cs with
  | '.' :: d :: rest =>
    if Text.isDigit d then
      (some (d :: rest.takeWhile Text.isDigit),
        ((dropClass Text.isDigit rest).behind d).behind '.')
    else (none, .all _)
  | cs => (none, .all cs)

/-- The sign and the digits of an exponent after its mark. -/
def scanPower (cs : List Char) : Bool × List Char × After cs :=
  match cs with
  | '+' :: rest =>
    (false, rest.takeWhile Text.isDigit, (dropClass Text.isDigit rest).behind '+')
  | '-' :: rest =>
    (true, rest.takeWhile Text.isDigit, (dropClass Text.isDigit rest).behind '-')
  | cs => (false, cs.takeWhile Text.isDigit, dropClass Text.isDigit cs)

/-- The exponent, if a mark for one stands here, as its sign and its digits. -/
def scanExponent (cs : List Char) : Option (Bool × List Char) × After cs :=
  match cs with
  | 'e' :: rest =>
    let (negative, digits, r) := scanPower rest
    (some (negative, digits), r.behind 'e')
  | 'E' :: rest =>
    let (negative, digits, r) := scanPower rest
    (some (negative, digits), r.behind 'E')
  | cs => (none, .all cs)

/-- The number with the given digits: an integer of 64 bits, or a double if it has a fraction
or an exponent.  An exponent needs digits. -/
def numberOf? (whole : List Char) (fraction : Option (List Char))
    (exponent : Option (Bool × List Char)) : Option Token :=
  let whole := whole.filter Text.isDigit
  match fraction, exponent with
  | none, none =>
    let n := Decimal.digitsValue whole
    if n < 0x8000000000000000 then some (.int (Int64.ofNat n)) else none
  | _, some (_, []) => none
  | _, _ =>
    let digits := fraction.getD []
    let power : Int := match exponent with
      | some (true, ds) => -(Decimal.digitsValue ds : Int)
      | some (false, ds) => Decimal.digitsValue ds
      | none => 0
    some (.float (Decimal.nearest (Decimal.digitsValue (whole ++ digits)) (power - digits.length)))

/-- The number that starts with the digit `c`, if it is one of the language. -/
def scanNumber (c : Char) (rest : List Char) : Option Token × After rest :=
  let r₁ := dropClass isDigitOrMark rest
  let (fraction, r₂) := scanFraction r₁.1
  let (exponent, r₃) := scanExponent r₂.1
  (numberOf? (c :: rest.takeWhile isDigitOrMark) fraction exponent,
    ⟨r₃.1, Nat.le_trans r₃.2 (Nat.le_trans r₂.2 r₁.2)⟩)

/-- The character that a backslash and this character stand for. -/
def unescape : Char → Char
  | 'n' => '\n'
  | 't' => '\t'
  | 'r' => '\r'
  | '0' => '\x00'
  | c => c

/-- The characters up to the closing quote, and what follows it. -/
def scanQuoted (quote : Char) : List Char → Option (List Char × List Char)
  | [] => none
  | [c] => if c = quote then some ([], []) else none
  | c :: e :: rest =>
    if c = quote then some ([], e :: rest)
    else if c = '\\' then (scanQuoted quote rest).map fun (s, r) => (unescape e :: s, r)
    else (scanQuoted quote (e :: rest)).map fun (s, r) => (c :: s, r)

theorem length_scanQuoted {quote : Char} {cs s r : List Char}
    (h : scanQuoted quote cs = some (s, r)) : r.length ≤ cs.length := by
  fun_induction scanQuoted quote cs generalizing s r with
  | case1 => simp at h
  | case2 => simp_all
  | case3 => simp at h
  | case4 => simp_all
  | case5 e rest _ ih =>
    simp only [Option.map_eq_some_iff, Prod.exists, Prod.mk.injEq] at h
    obtain ⟨s', r', hr, _, rfl⟩ := h
    have := ih hr
    simp only [List.length_cons]
    omega
  | case6 c e rest _ _ ih =>
    simp only [Option.map_eq_some_iff, Prod.exists, Prod.mk.injEq] at h
    obtain ⟨s', r', hr, _, rfl⟩ := h
    have := ih hr
    simp only [List.length_cons] at this ⊢
    omega

/-- A sign at the start of a text, the longest that fits. -/
def scanSymbol (c : Char) (rest : List Char) : Option (Symbol × After rest) :=
  match rest with
  | [] => (Symbol.ofOne? c).map fun s => (s, .all [])
  | d :: more =>
    match Symbol.ofTwo? c d with
    | some s => some (s, (After.all more).behind d)
    | none => (Symbol.ofOne? c).map fun s => (s, .all (d :: more))

/-- The token that starts with `c`, which is no blank, and what follows it. -/
def scanToken (line : Nat) (c : Char) (rest : List Char) :
    Except ScriptError (Token × { r : List Char // r.length < (c :: rest).length }) :=
  if Text.isDigit c then
    match scanNumber c rest with
    | (some token, r) => .ok (token, ⟨r.1, Nat.lt_succ_of_le r.2⟩)
    | (none, _) => .error (.unexpectedChar line c)
  else if Text.isLetter c || c == '_' then
    .ok (.word (String.ofList (c :: rest.takeWhile isWordChar)),
      ⟨(dropClass isWordChar rest).1, Nat.lt_succ_of_le (dropClass isWordChar rest).2⟩)
  else if c == '"' || c == '\'' then
    match h : scanQuoted c rest with
    | some (s, r) => .ok (.text (String.ofList s), ⟨r, Nat.lt_succ_of_le (length_scanQuoted h)⟩)
    | none => .error (.unterminatedText line)
  else
    match scanSymbol c rest with
    | some (s, r) => .ok (.symbol s, ⟨r.1, Nat.lt_succ_of_le r.2⟩)
    | none => .error (.unexpectedChar line c)

/-! ## Lines -/

/-- The tokens of a line. -/
def tokensOf (line : Nat) (cs : List Char) : Except ScriptError (List Token) :=
  match cs with
  | [] => .ok []
  | c :: rest =>
    if Text.isBlank c then tokensOf line rest
    else if c = '#' then .ok []
    else do
      let (token, after) ← scanToken line c rest
      return token :: (← tokensOf line after.1)
termination_by cs.length
decreasing_by
  · simp
  · exact after.2

/-- The width of the blanks at the start of a line, in which a tab counts four. -/
def indentation : List Char → Nat
  | [] => 0
  | c :: cs =>
    if Text.isBlank c then (if c = '\t' then 4 else 1) + indentation cs else 0

/-- A line with tokens. -/
structure Line where
  number : Nat
  indent : Nat
  tokens : List Token

/-- The line with the given number, if it has tokens. -/
def lineOf (number : Nat) (cs : List Char) : Except ScriptError (Option Line) := do
  match ← tokensOf number cs with
  | [] => return none
  | tokens => return some ⟨number, indentation cs, tokens⟩

/-- The lines of a script, which are counted from one. -/
def linesOf (source : String) : Except ScriptError (List Line) := do
  let lines ← ((Text.lines source.toList).zipIdx 1).mapM fun (cs, number) => lineOf number cs
  return lines.filterMap id

end Dataflow.Script

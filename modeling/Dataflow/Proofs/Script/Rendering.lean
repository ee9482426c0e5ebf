import Mathlib.Data.List.Basic
import Dataflow.Script.Definition

/-!
# Scripts as tokens

The tokens of an expression, with parentheses only where the levels of the language ask for them:
an operand stands between parentheses if it binds looser than its place allows.  From these the
tokens of statements and headers are made, one line each.
-/

namespace Dataflow.Script

/-! ## Levels -/

/-- What an expression can be at its outermost, from the loosest to the tightest. -/
inductive Precedence where
  | disjunction
  | conjunction
  | negation
  | comparison
  | sum
  | product
  | sign
  | power
  | access
deriving DecidableEq, Repr

/-- The place of a level among the others. -/
def Precedence.rank : Precedence → ℕ
  | disjunction => 0
  | conjunction => 1
  | negation => 2
  | comparison => 3
  | sum => 4
  | product => 5
  | sign => 6
  | power => 7
  | access => 8

namespace Arithmetic

/-- The sign of an operation. -/
def symbol : Arithmetic → Symbol
  | add => .plus
  | subtract => .minus
  | multiply => .times
  | divide => .divide
  | floorDivide => .floorDivide
  | modulo => .modulo
  | power => .power

/-- The level of an operation. -/
def precedence : Arithmetic → Precedence
  | add | subtract => .sum
  | multiply | divide | floorDivide | modulo => .product
  | power => .power

/-- What may stand on the left of an operation without parentheses: sums and products group to
the left. -/
def left : Arithmetic → Precedence
  | add | subtract => .sum
  | multiply | divide | floorDivide | modulo => .product
  | power => .access

/-- What may stand on the right.  An exponent may have signs, and be a power. -/
def right : Arithmetic → Precedence
  | add | subtract => .product
  | multiply | divide | floorDivide | modulo | power => .sign

end Arithmetic

/-- The sign of a comparison. -/
def Comparison.symbol : Comparison → Symbol
  | equal => .equal
  | notEqual => .notEqual
  | greater => .greater
  | greaterEqual => .greaterEqual
  | less => .less
  | lessEqual => .lessEqual

/-- The level of an expression. -/
def Expr.precedence : Expr → Precedence
  | .or _ _ => .disjunction
  | .and _ _ => .conjunction
  | .not _ => .negation
  | .compare _ _ _ => .comparison
  | .arithmetic op _ _ => op.precedence
  | .negate _ => .sign
  | .call _ _ | .index _ _ | .list _ | .map _ | .literal _ | .variable _ => .access

/-! ## Expressions -/

/-- The tokens of an expression in a place for a level: between parentheses if the expression
binds looser. -/
def Expr.within (place : Precedence) (e : Expr) (ts : List Token) : List Token :=
  if e.precedence.rank < place.rank then .symbol .openParen :: ts ++ [.symbol .closeParen] else ts

/-- The tokens of a value that can be written.  Other values come from calculations only. -/
def literalTokens : Value → List Token
  | .null => [.word "None"]
  | .bool true => [.word "True"]
  | .bool false => [.word "False"]
  | .int n => [.int n]
  | .text s => [.text s]
  | .float _ | .list _ | .map _ => []

mutual

/-- The tokens of an expression. -/
def Expr.tokens : Expr → List Token
  | .or left right =>
    left.within .disjunction left.tokens ++ .word "or" :: right.within .conjunction right.tokens
  | .and left right =>
    left.within .conjunction left.tokens ++ .word "and" :: right.within .negation right.tokens
  | .not e => .word "not" :: e.within .negation e.tokens
  | .compare op left right =>
    left.within .sum left.tokens ++ .symbol op.symbol :: right.within .sum right.tokens
  | .arithmetic op left right =>
    left.within op.left left.tokens ++ .symbol op.symbol :: right.within op.right right.tokens
  | .negate e => .symbol .minus :: e.within .sign e.tokens
  | .call name args =>
    .word name :: .symbol .openParen :: (itemTokens args ++ [.symbol .closeParen])
  | .index target index =>
    target.within .access target.tokens ++
      .symbol .openBracket :: (index.tokens ++ [.symbol .closeBracket])
  | .list items => .symbol .openBracket :: (itemTokens items ++ [.symbol .closeBracket])
  | .map entries => .symbol .openBrace :: (entryTokens entries ++ [.symbol .closeBrace])
  | .literal v => literalTokens v
  | .variable name => [.word name]

/-- The tokens of expressions with commas between them. -/
def itemTokens : List Expr → List Token
  | [] => []
  | [e] => e.tokens
  | e :: e' :: rest => e.tokens ++ .symbol .comma :: itemTokens (e' :: rest)

/-- The tokens of keys and values with commas between them. -/
def entryTokens : List (Expr × Expr) → List Token
  | [] => []
  | [(key, value)] => key.tokens ++ .symbol .colon :: value.tokens
  | (key, value) :: entry :: rest =>
    key.tokens ++ .symbol .colon :: (value.tokens ++ .symbol .comma :: entryTokens (entry :: rest))

end

/-! ## Lines -/

/-- The tokens of a statement. -/
def Statement.tokens : Statement → List Token
  | .assign target e => .word target :: .symbol .assign :: e.tokens
  | .expr e => e.tokens
  | .return none => [.word "return"]
  | .return (some e) => .word "return" :: e.tokens

/-- The tokens of a parameter. -/
def Param.tokens (p : Param) : List Token :=
  match p.default with
  | none => [.word p.name]
  | some e => .word p.name :: .symbol .assign :: e.tokens

/-- The tokens of parameters with commas between them. -/
def paramTokens : List Param → List Token
  | [] => []
  | [p] => p.tokens
  | p :: p' :: rest => p.tokens ++ .symbol .comma :: paramTokens (p' :: rest)

/-- The tokens of the line that starts a definition. -/
def FunctionDef.headerTokens (f : FunctionDef) : List Token :=
  .word "def" :: .word f.name :: .symbol .openParen ::
    (paramTokens f.params ++ [.symbol .closeParen, .symbol .colon])

/-! ## What can be written -/

/-- The words that are no names. -/
def reserved : List String :=
  ["and", "or", "not", "True", "False", "None", "return", "def", "import", "from"]

/-- Whether a text is one word: a letter or an underscore, and behind it letters, numbers and
underscores. -/
def isWord (name : String) : Bool :=
  match name.toList with
  | [] => false
  | c :: cs => (Text.isLetter c || c == '_') && cs.all isWordChar

/-- A word that can name a function, a parameter or a variable. -/
def IsName (name : String) : Prop := isWord name = true ∧ name ∉ reserved

instance (name : String) : Decidable (IsName name) :=
  inferInstanceAs (Decidable (isWord name = true ∧ name ∉ reserved))

/-- A value that can be written: there are no negative numbers, as the sign is an operator. -/
def IsLiteral : Value → Prop
  | .null | .bool _ | .text _ => True
  | .int n => 0 ≤ n.toInt
  | .float _ | .list _ | .map _ => False

instance : DecidablePred IsLiteral
  | .null | .bool _ | .text _ => isTrue trivial
  | .int n => inferInstanceAs (Decidable (0 ≤ n.toInt))
  | .float _ | .list _ | .map _ => isFalse id

mutual

/-- An expression with names and literals that can be written. -/
def Expr.Writable : Expr → Prop
  | .or left right | .and left right | .compare _ left right | .arithmetic _ left right =>
    left.Writable ∧ right.Writable
  | .not e | .negate e => e.Writable
  | .call name args => IsName name ∧ ItemsWritable args
  | .index target index => target.Writable ∧ index.Writable
  | .list items => ItemsWritable items
  | .map entries => EntriesWritable entries
  | .literal v => IsLiteral v
  | .variable name => IsName name

/-- The same for all expressions of a list. -/
def ItemsWritable : List Expr → Prop
  | [] => True
  | e :: rest => e.Writable ∧ ItemsWritable rest

/-- The same for all keys and values of a list. -/
def EntriesWritable : List (Expr × Expr) → Prop
  | [] => True
  | (key, value) :: rest => key.Writable ∧ value.Writable ∧ EntriesWritable rest

end

/-- A statement that can be written. -/
def Statement.Writable : Statement → Prop
  | .assign target e => IsName target ∧ e.Writable
  | .expr e => e.Writable
  | .return none => True
  | .return (some e) => e.Writable

/-- A function that can be written. -/
structure FunctionDef.Writable (f : FunctionDef) : Prop where
  name : IsName f.name
  param : ∀ p ∈ f.params, IsName p.name ∧ ∀ e, p.default = some e → e.Writable
  statement : ∀ s ∈ f.body, s.Writable

end Dataflow.Script

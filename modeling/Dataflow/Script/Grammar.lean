import Dataflow.Script.Expr
import Dataflow.Script.Token

/-!
# The grammar of the script language

A recursive descent over tokens.  What a function reads it returns together with the tokens
that follow, of which there are fewer than before.  From the loosest to the tightest the
operators are `or`, `and`, `not`, the comparisons, which do not chain, the sums, the products,
the signs, the power, which groups to the right, and indexing and calls.
-/

namespace Dataflow.Script

/-- What was wanted at a place, and the token found there. -/
structure Mismatch where
  expected : Expected
  found : Option Token

/-- Something that takes at least one token of `ts`, and the tokens after it. -/
abbrev Phrase (α : Type) (ts : List Token) : Type :=
  Except Mismatch (α × { r : List Token // r.length < ts.length })

/-- Something that may take no token of `ts`, and the tokens after it. -/
abbrev Ending (α : Type) (ts : List Token) : Type :=
  Except Mismatch (α × { r : List Token // r.length ≤ ts.length })

/-- The tokens after the first one. -/
def afterFirst (t : Token) (rest : List Token) :
    { r : List Token // r.length < (t :: rest).length } :=
  ⟨rest, Nat.lt_succ_self _⟩

/-- All of the tokens. -/
def afterNone (ts : List Token) : { r : List Token // r.length ≤ ts.length } := ⟨ts, Nat.le_refl _⟩

/-! ## Operators -/

/-- The levels at which operators group to the left. -/
inductive Level where
  | disjunction
  | conjunction
  | sum
  | product
deriving DecidableEq, Repr

/-- What an operator of a level makes of its operands, if the token is one. -/
def Level.operator? : Level → Token → Option (Expr → Expr → Expr)
  | disjunction, .word "or" => some .or
  | conjunction, .word "and" => some .and
  | sum, .symbol .plus => some (.arithmetic .add)
  | sum, .symbol .minus => some (.arithmetic .subtract)
  | product, .symbol .times => some (.arithmetic .multiply)
  | product, .symbol .divide => some (.arithmetic .divide)
  | product, .symbol .floorDivide => some (.arithmetic .floorDivide)
  | product, .symbol .modulo => some (.arithmetic .modulo)
  | _, _ => none

/-- The comparison of a token. -/
def comparison? : Token → Option Comparison
  | .symbol .equal => some .equal
  | .symbol .notEqual => some .notEqual
  | .symbol .greater => some .greater
  | .symbol .greaterEqual => some .greaterEqual
  | .symbol .less => some .less
  | .symbol .lessEqual => some .lessEqual
  | _ => none

/-- The expression of a name: some names are constants. -/
def ofName (name : String) : Expr :=
  match name with
  | "True" => .literal (.bool true)
  | "False" => .literal (.bool false)
  | "None" => .literal .null
  | _ => .variable name

/-- The place of a level in the descent; its operands come right below it. -/
def Level.rank : Level → Nat
  | product => 5
  | sum => 7
  | conjunction => 11
  | disjunction => 13

/-- The sign that has to stand at the front. -/
def expect (s : Symbol) : (ts : List Token) → Phrase Unit ts
  | .symbol t :: rest =>
    if t = s then .ok ((), afterFirst _ rest)
    else .error ⟨.sign s, some (.symbol t)⟩
  | t :: _ => .error ⟨.sign s, some t⟩
  | [] => .error ⟨.sign s, none⟩

/-! ## Expressions -/

mutual

/-- Operands of a level with its operators between them. -/
def chain (l : Level) (ts : List Token) : Phrase Expr ts := do
  let (left, ⟨rest, h⟩) ← operand l ts
  let (e, ⟨rest, h'⟩) ← chainAfter l left rest
  return (e, ⟨rest, Nat.lt_of_le_of_lt h' h⟩)
termination_by (ts.length, l.rank)
decreasing_by
  · exact Prod.Lex.right _ (by cases l <;> decide)
  · exact Prod.Lex.left _ _ h

/-- The operators and operands of a level that follow the operand `left`. -/
def chainAfter (l : Level) (left : Expr) (ts : List Token) : Ending Expr ts :=
  match ts with
  | [] => .ok (left, afterNone [])
  | t :: rest =>
    match l.operator? t with
    | none => .ok (left, afterNone (t :: rest))
    | some build => do
      let (right, ⟨rest', h⟩) ← operand l rest
      let (e, ⟨rest'', h'⟩) ← chainAfter l (build left right) rest'
      return (e, ⟨rest'', Nat.le_of_lt (Nat.lt_succ_of_lt (Nat.lt_of_le_of_lt h' h))⟩)
termination_by (ts.length, 0)
decreasing_by
  · exact Prod.Lex.left _ _ (Nat.lt_succ_self _)
  · exact Prod.Lex.left _ _ (Nat.lt_succ_of_lt h)

/-- An operand of a level. -/
def operand (l : Level) (ts : List Token) : Phrase Expr ts :=
  match l with
  | .disjunction => chain .conjunction ts
  | .conjunction => negation ts
  | .sum => chain .product ts
  | .product => signed ts
termination_by (ts.length, l.rank - 1)
decreasing_by all_goals exact Prod.Lex.right _ (by decide)

/-- A comparison, or the denial of one. -/
def negation (ts : List Token) : Phrase Expr ts :=
  match ts with
  | .word "not" :: rest => do
    let (e, ⟨rest', h⟩) ← negation rest
    return (.not e, ⟨rest', Nat.lt_succ_of_lt h⟩)
  | ts => comparison ts
termination_by (ts.length, 9)
decreasing_by
  · exact Prod.Lex.left _ _ (Nat.lt_succ_self _)
  · exact Prod.Lex.right _ (by decide)

/-- A sum, or two of them with a comparison between. -/
def comparison (ts : List Token) : Phrase Expr ts := do
  let (left, ⟨rest, h⟩) ← chain .sum ts
  match hr : rest with
  | [] => return (left, ⟨[], hr ▸ h⟩)
  | t :: after =>
    match comparison? t with
    | none => return (left, ⟨t :: after, hr ▸ h⟩)
    | some op => do
      let (right, ⟨rest', h'⟩) ← chain .sum after
      return (.compare op left right, ⟨rest', by simp only [hr, List.length_cons] at h; omega⟩)
termination_by (ts.length, 8)
decreasing_by
  · exact Prod.Lex.right _ (by decide)
  · exact Prod.Lex.left _ _ (by simp only [hr, List.length_cons] at h; omega)

/-- A power with signs in front of it. -/
def signed (ts : List Token) : Phrase Expr ts :=
  match ts with
  | .symbol .minus :: rest => do
    let (e, ⟨rest', h⟩) ← signed rest
    return (.negate e, ⟨rest', Nat.lt_succ_of_lt h⟩)
  | .symbol .plus :: rest => do
    let (e, ⟨rest', h⟩) ← signed rest
    return (e, ⟨rest', Nat.lt_succ_of_lt h⟩)
  | ts => power ts
termination_by (ts.length, 3)
decreasing_by
  · exact Prod.Lex.left _ _ (Nat.lt_succ_self _)
  · exact Prod.Lex.left _ _ (Nat.lt_succ_self _)
  · exact Prod.Lex.right _ (by decide)

/-- An indexed or called expression, perhaps with an exponent, which may have signs. -/
def power (ts : List Token) : Phrase Expr ts := do
  let (base, ⟨rest, h⟩) ← access ts
  match hr : rest with
  | .symbol .power :: after => do
    let (exponent, ⟨rest', h'⟩) ← signed after
    return (.arithmetic .power base exponent,
      ⟨rest', by simp only [hr, List.length_cons] at h; omega⟩)
  | rest => return (base, ⟨rest, hr ▸ h⟩)
termination_by (ts.length, 2)
decreasing_by
  · exact Prod.Lex.right _ (by decide)
  · exact Prod.Lex.left _ _ (by simp only [hr, List.length_cons] at h; omega)

/-- A primary with indices and calls after it. -/
def access (ts : List Token) : Phrase Expr ts := do
  let (e, ⟨rest, h⟩) ← primary ts
  let (e, ⟨rest, h'⟩) ← accessAfter e rest
  return (e, ⟨rest, Nat.lt_of_le_of_lt h' h⟩)
termination_by (ts.length, 1)
decreasing_by
  · exact Prod.Lex.right _ (by decide)
  · exact Prod.Lex.left _ _ h

/-- The indices and calls that follow an expression.  Only a name can be called. -/
def accessAfter (e : Expr) (ts : List Token) : Ending Expr ts :=
  match ts with
  | .symbol .openBracket :: rest => do
    let (index, ⟨rest, h⟩) ← chain .disjunction rest
    let ((), ⟨rest, h'⟩) ← expect .closeBracket rest
    let (e, ⟨rest, h''⟩) ← accessAfter (.index e index) rest
    return (e, ⟨rest, by simp only [List.length_cons]; omega⟩)
  | .symbol .openParen :: rest =>
    match e with
    | .variable name => do
      let (args, ⟨rest, h⟩) ← items .closeParen rest
      let (e, ⟨rest, h'⟩) ← accessAfter (.call name args) rest
      return (e, ⟨rest, by simp only [List.length_cons]; omega⟩)
    | _ => .error ⟨.callable, some (.symbol .openParen)⟩
  | ts => .ok (e, afterNone ts)
termination_by (ts.length, 0)
decreasing_by
  · exact Prod.Lex.left _ _ (Nat.lt_succ_self _)
  · exact Prod.Lex.left _ _ (by simp only [List.length_cons]; omega)
  · exact Prod.Lex.left _ _ (Nat.lt_succ_self _)
  · exact Prod.Lex.left _ _ (by simp only [List.length_cons]; omega)

/-- A literal, a name, a list, a mapping, or an expression between parentheses. -/
def primary (ts : List Token) : Phrase Expr ts :=
  match ts with
  | [] => .error ⟨.expression, none⟩
  | .int n :: rest => .ok (.literal (.int n), afterFirst _ rest)
  | .float x :: rest => .ok (.literal (.float x), afterFirst _ rest)
  | .text s :: rest => .ok (.literal (.text s), afterFirst _ rest)
  | .word name :: rest => .ok (ofName name, afterFirst _ rest)
  | .symbol s :: rest =>
    match s with
    | .openParen => do
      let (e, ⟨rest, h⟩) ← chain .disjunction rest
      let ((), ⟨rest, h'⟩) ← expect .closeParen rest
      return (e, ⟨rest, by simp only [List.length_cons]; omega⟩)
    | .openBracket => do
      let (l, ⟨rest, h⟩) ← items .closeBracket rest
      return (.list l, ⟨rest, Nat.lt_succ_of_lt h⟩)
    | .openBrace => do
      let (l, ⟨rest, h⟩) ← entries rest
      return (.map l, ⟨rest, Nat.lt_succ_of_lt h⟩)
    | s => .error ⟨.expression, some (.symbol s)⟩
termination_by (ts.length, 0)
decreasing_by
  · exact Prod.Lex.left _ _ (Nat.lt_succ_self _)
  · exact Prod.Lex.left _ _ (Nat.lt_succ_self _)
  · exact Prod.Lex.left _ _ (Nat.lt_succ_self _)

/-- Expressions with commas between them, up to a closing sign.  A comma may end them. -/
def items (close : Symbol) (ts : List Token) : Phrase (List Expr) ts :=
  match expect close ts with
  | .ok ((), rest) => .ok ([], rest)
  | .error _ => do
    let (e, ⟨rest, h⟩) ← chain .disjunction ts
    match hr : rest with
    | .symbol .comma :: after => do
      let (l, ⟨rest, h'⟩) ← items close after
      return (e :: l, ⟨rest, by simp only [hr, List.length_cons] at h; omega⟩)
    | rest => do
      let ((), ⟨rest', h'⟩) ← expect close rest
      return ([e], ⟨rest', by simp only [hr] at h; omega⟩)
termination_by (ts.length, 14)
decreasing_by
  · exact Prod.Lex.right _ (by decide)
  · exact Prod.Lex.left _ _ (by simp only [hr, List.length_cons] at h; omega)

/-- Keys and values with commas between them, up to the closing brace. -/
def entries (ts : List Token) : Phrase (List (Expr × Expr)) ts :=
  match expect .closeBrace ts with
  | .ok ((), rest) => .ok ([], rest)
  | .error _ => do
    let (key, ⟨rest, h⟩) ← chain .disjunction ts
    let ((), ⟨rest, h₁⟩) ← expect .colon rest
    let (value, ⟨rest, h₂⟩) ← chain .disjunction rest
    match hr : rest with
    | .symbol .comma :: after => do
      let (l, ⟨rest, h'⟩) ← entries after
      return ((key, value) :: l, ⟨rest, by simp only [hr, List.length_cons] at h₂; omega⟩)
    | rest => do
      let ((), ⟨rest', h'⟩) ← expect .closeBrace rest
      return ([(key, value)], ⟨rest', by simp only [hr] at h₂; omega⟩)
termination_by (ts.length, 14)
decreasing_by
  · exact Prod.Lex.right _ (by decide)
  · exact Prod.Lex.left _ _ (by omega)
  · exact Prod.Lex.left _ _ (by simp only [hr, List.length_cons] at h₂; omega)

end

/-- An expression. -/
def expression (ts : List Token) : Phrase Expr ts := chain .disjunction ts

end Dataflow.Script

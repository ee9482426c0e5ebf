import Dataflow.Script.Grammar

/-!
# Functions of a script

A script is a list of function definitions.  A definition is a line that starts with `def`, and
the lines after it that are indented deeper; each of those is one statement.  Annotations of
parameters and results are skipped, and so are lines that import modules.
-/

namespace Dataflow.Script

/-- A name at the front. -/
def identifier : (ts : List Token) → Phrase String ts
  | .word name :: rest => .ok (name, afterFirst _ rest)
  | t :: _ => .error ⟨.identifier, some t⟩
  | [] => .error ⟨.identifier, none⟩

/-- What is wrong if tokens are left at the end of a line. -/
def endOfLine : List Token → Except Mismatch Unit
  | [] => .ok ()
  | t :: _ => .error ⟨.endOfLine, some t⟩

/-- An expression that takes all of the tokens. -/
def wholeExpression (ts : List Token) : Except Mismatch Expr := do
  let (e, ⟨rest, _⟩) ← expression ts
  endOfLine rest
  return e

/-- A statement that takes all of the tokens. -/
def statement (ts : List Token) : Except Mismatch Statement :=
  match ts with
  | [.word "return"] => .ok (.return none)
  | .word "return" :: rest => do return .return (some (← wholeExpression rest))
  | .word target :: .symbol .assign :: rest => do return .assign target (← wholeExpression rest)
  | ts => do return .expr (← wholeExpression ts)

/-! ## Headers -/

/-- The tokens after an annotation, of which `depth` brackets are open.  It ends in front of a
comma, an equals sign or a closing parenthesis outside of its brackets. -/
def skipTyping : Nat → List Token → List Token
  | _, [] => []
  | depth, .symbol .openBracket :: rest => skipTyping (depth + 1) rest
  | depth, .symbol .openParen :: rest => skipTyping (depth + 1) rest
  | depth + 1, .symbol .closeBracket :: rest => skipTyping depth rest
  | depth + 1, .symbol .closeParen :: rest => skipTyping depth rest
  | 0, .symbol .comma :: rest => .symbol .comma :: rest
  | 0, .symbol .assign :: rest => .symbol .assign :: rest
  | 0, .symbol .closeParen :: rest => .symbol .closeParen :: rest
  | depth, _ :: rest => skipTyping depth rest

theorem length_skipTyping_le (depth : Nat) (ts : List Token) :
    (skipTyping depth ts).length ≤ ts.length := by
  fun_induction skipTyping depth ts <;> simp_all <;> omega

/-- An annotation after a colon, if there is one. -/
def typing (ts : List Token) : { r : List Token // r.length ≤ ts.length } :=
  match ts with
  | .symbol .colon :: rest =>
    ⟨skipTyping 0 rest, Nat.le_succ_of_le (length_skipTyping_le 0 rest)⟩
  | ts => afterNone ts

/-- A default after an equals sign, if there is one. -/
def defaultValue (ts : List Token) : Ending (Option Expr) ts :=
  match ts with
  | .symbol .assign :: rest => do
    let (e, ⟨rest', h⟩) ← expression rest
    return (some e, ⟨rest', Nat.le_of_lt (Nat.lt_succ_of_lt h)⟩)
  | ts => .ok (none, afterNone ts)

/-- A parameter. -/
def param (ts : List Token) : Phrase Param ts := do
  let (name, ⟨rest, h⟩) ← identifier ts
  let ⟨rest, h'⟩ := typing rest
  let (default, ⟨rest, h''⟩) ← defaultValue rest
  return (⟨name, default⟩, ⟨rest, by omega⟩)

/-- Parameters with commas between them, up to the closing parenthesis. -/
def params (ts : List Token) : Phrase (List Param) ts :=
  match expect .closeParen ts with
  | .ok ((), rest) => .ok ([], rest)
  | .error _ => do
    let (p, ⟨rest, h⟩) ← param ts
    match hr : rest with
    | .symbol .comma :: after => do
      let (l, ⟨rest', h'⟩) ← params after
      return (p :: l, ⟨rest', by simp only [hr, List.length_cons] at h; omega⟩)
    | rest => do
      let ((), ⟨rest', h'⟩) ← expect .closeParen rest
      return ([p], ⟨rest', by simp only [hr] at h; omega⟩)
termination_by ts.length
decreasing_by simp only [hr, List.length_cons] at h; omega

/-- The tokens after an annotation of the result, which an arrow starts and a colon ends. -/
def resultTyping : List Token → Except Mismatch (List Token)
  | .symbol .minus :: rest => do
    let ((), ⟨rest, _⟩) ← expect .greater rest
    return rest.dropWhile (· ≠ .symbol .colon)
  | ts => .ok ts

/-- The header of a definition after `def`, with the statement after its colon as the body. -/
def header (ts : List Token) : Except Mismatch FunctionDef := do
  let (name, ⟨rest, _⟩) ← identifier ts
  let ((), ⟨rest, _⟩) ← expect .openParen rest
  let (params, ⟨rest, _⟩) ← params rest
  let rest ← resultTyping rest
  let ((), ⟨rest, _⟩) ← expect .colon rest
  match rest with
  | [] => return ⟨name, params, []⟩
  | rest => return ⟨name, params, [← statement rest]⟩

/-! ## Scripts -/

/-- The result with the line in which something is wrong. -/
def atLine {α : Type} (line : Nat) : Except Mismatch α → Except ScriptError α
  | .ok a => .ok a
  | .error m => .error (.unexpectedToken line m.expected m.found)

/-- The functions that the lines define. -/
def definitions : List Line → Except ScriptError (List FunctionDef)
  | [] => .ok []
  | line :: rest =>
    match line.tokens with
    | .word "import" :: _ | .word "from" :: _ => definitions rest
    | .word "def" :: ts => do
      let f ← atLine line.number (header ts)
      let body ← (rest.takeWhile fun l => line.indent < l.indent).mapM fun l =>
        atLine l.number (statement l.tokens)
      let more ← definitions (rest.dropWhile fun l => line.indent < l.indent)
      return { f with body := f.body ++ body } :: more
    | t :: _ => .error (.unexpectedToken line.number .definition (some t))
    | [] => definitions rest
termination_by ls => ls.length
decreasing_by
  · simp
  · exact Nat.lt_succ_of_le (List.dropWhile_sublist _).length_le
  · simp

/-- The functions of a script. -/
def parse (source : String) : Except ScriptError (List FunctionDef) := do
  definitions (← linesOf source)

/-- The expression that a line of text is. -/
def parseExpression (text : String) : Except ScriptError Expr := do
  atLine 1 (wholeExpression (← tokensOf 1 text.toList))

/-- The first function of a script with the given name. -/
def findFunction (name source : String) : Except ScriptError FunctionDef := do
  match (← parse source).find? fun f => f.name = name with
  | some f => return f
  | none => throw (.functionNotFound name)

end Dataflow.Script

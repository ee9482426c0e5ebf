import Dataflow.Proofs.Script.Inversion
import Dataflow.Proofs.Script.Reading

/-!
# Reading the lines of a definition

A statement is told by its first tokens: `return` starts one kind, a name with an equals sign
behind it another, and whatever else there is is an expression.  No expression has an equals sign
among its tokens, so that the kinds do not mix (`statement_tokens`).  A header gives the name and
the parameters (`header_headerTokens`), and the lines below it that are indented deeper give the
body (`definitions_listing`).
-/

namespace Dataflow.Script

variable {e : Expr} {rest : List Token}

/-! ## Statements -/

/-- Whether a token can stand in an expression.  An equals sign cannot. -/
def Token.isPlain : Token → Bool
  | int n => 0 ≤ n.toInt
  | float _ => false
  | text _ => true
  | word name => isWord name
  | symbol s => s != .assign

lemma plain_within {l : Precedence} {ts : List Token} (h : ts.all Token.isPlain = true) :
    (e.within l ts).all Token.isPlain = true := by
  rw [Expr.within]
  split
  · simpa [Token.isPlain] using h
  · exact h

lemma plain_literal {v : Value} (h : IsLiteral v) :
    (literalTokens v).all Token.isPlain = true := by
  cases v with
  | null => decide
  | bool b => cases b <;> decide
  | int n => simpa [literalTokens, Token.isPlain, IsLiteral] using h
  | text s => rfl
  | float _ => exact h.elim
  | list _ => exact h.elim
  | map _ => exact h.elim

mutual

theorem plain_tokens : ∀ e : Expr, e.Writable → e.tokens.all Token.isPlain = true
  | .or left right, h => by
    have hleft := plain_within (e := left) (l := .disjunction) (plain_tokens left h.1)
    have hright := plain_within (e := right) (l := .conjunction) (plain_tokens right h.2)
    have hword : (Token.word "or").isPlain = true := by decide
    simp [Expr.tokens, hleft, hright, hword]
  | .and left right, h => by
    have hleft := plain_within (e := left) (l := .conjunction) (plain_tokens left h.1)
    have hright := plain_within (e := right) (l := .negation) (plain_tokens right h.2)
    have hword : (Token.word "and").isPlain = true := by decide
    simp [Expr.tokens, hleft, hright, hword]
  | .not e, h => by
    have he := plain_within (e := e) (l := .negation) (plain_tokens e h)
    have hword : (Token.word "not").isPlain = true := by decide
    simp [Expr.tokens, he, hword]
  | .compare op left right, h => by
    have hleft := plain_within (e := left) (l := .sum) (plain_tokens left h.1)
    have hright := plain_within (e := right) (l := .sum) (plain_tokens right h.2)
    have hop : (Token.symbol op.symbol).isPlain = true := by cases op <;> rfl
    simp [Expr.tokens, hleft, hright, hop]
  | .arithmetic op left right, h => by
    have hleft := plain_within (e := left) (l := op.left) (plain_tokens left h.1)
    have hright := plain_within (e := right) (l := op.right) (plain_tokens right h.2)
    have hop : (Token.symbol op.symbol).isPlain = true := by cases op <;> rfl
    simp [Expr.tokens, hleft, hright, hop]
  | .negate e, h => by
    have he := plain_within (e := e) (l := .sign) (plain_tokens e h)
    simp [Expr.tokens, he, Token.isPlain]
  | .call name args, h => by
    have hargs := plain_itemTokens args h.2
    have hname : isWord name = true := h.1.1
    simp [Expr.tokens, hargs, hname, Token.isPlain]
  | .index target index, h => by
    have htarget := plain_within (e := target) (l := .access) (plain_tokens target h.1)
    have hindex := plain_tokens index h.2
    simp [Expr.tokens, htarget, hindex, Token.isPlain]
  | .list items, h => by
    have hitems := plain_itemTokens items h
    simp [Expr.tokens, hitems, Token.isPlain]
  | .map entries, h => by
    have hentries := plain_entryTokens entries h
    simp [Expr.tokens, hentries, Token.isPlain]
  | .literal v, h => by
    rw [Expr.tokens]
    exact plain_literal h
  | .variable name, h => by
    have hname : (Token.word name).isPlain = true := h.1
    simp [Expr.tokens, hname]

theorem plain_itemTokens :
    ∀ l : List Expr, ItemsWritable l → (itemTokens l).all Token.isPlain = true
  | [], _ => by simp [itemTokens]
  | [e], h => by
    rw [itemTokens]
    exact plain_tokens e h.1
  | e :: e' :: l, h => by
    have hfirst := plain_tokens e h.1
    have hmore := plain_itemTokens (e' :: l) h.2
    simp [itemTokens, hfirst, hmore, Token.isPlain]

theorem plain_entryTokens :
    ∀ l : List (Expr × Expr), EntriesWritable l → (entryTokens l).all Token.isPlain = true
  | [], _ => by simp [entryTokens]
  | [(key, value)], h => by
    have hkey := plain_tokens key h.1
    have hvalue := plain_tokens value h.2.1
    simp [entryTokens, hkey, hvalue, Token.isPlain]
  | (key, value) :: entry :: l, h => by
    have hkey := plain_tokens key h.1
    have hvalue := plain_tokens value h.2.1
    have hmore := plain_entryTokens (entry :: l) h.2.2
    simp [entryTokens, hkey, hvalue, hmore, Token.isPlain]

end

lemma wholeExpression_tokens (h : e.Writable) : wholeExpression e.tokens = .ok e := by
  have hread : Reads .disjunction e.tokens e :=
    (reads_tokens e h).loosen (begins_tokens e h) (Nat.zero_le _)
  have hstops : Stops .disjunction [] := fun t ht => by simp at ht
  have hgives := Chains.gives (l := .disjunction) hread hstops
  rw [List.append_nil] at hgives
  obtain ⟨hlt, hgives⟩ := hgives
  rw [wholeExpression, expression, hgives]
  rfl

lemma IsName.ne_return {name : String} (h : IsName name) : name ≠ "return" := by
  rintro rfl
  exact h.2 (by decide)

lemma Token.Starts.ne_return {l : Precedence} {t : Token} (h : t.Starts l) :
    t ≠ .word "return" := by
  cases h with
  | word _ hne => simpa using hne
  | _ => simp

/-- An expression never starts like a statement of another kind. -/
lemma statement_tokens_expr (h : e.Writable) : statement e.tokens = .ok (.expr e) := by
  have hreturn : HeadFree (· = .word "return") e.tokens :=
    (begins_tokens e h).headFree fun t ht => ht.ne_return
  rw [statement, wholeExpression_tokens h]
  · rfl
  · intro heq
    exact hreturn (.word "return") (by rw [heq]; rfl) rfl
  · intro rest heq
    exact hreturn (.word "return") (by rw [heq]; rfl) rfl
  · intro target rest heq
    have hplain := plain_tokens e h
    simp [heq, Token.isPlain] at hplain

/-- **The tokens of a statement are read back.** -/
theorem statement_tokens {s : Statement} (h : s.Writable) : statement s.tokens = .ok s := by
  cases s with
  | assign target e =>
    rw [Statement.tokens, statement, wholeExpression_tokens h.2]
    · rfl
    · exact h.1.ne_return
  | expr e => exact statement_tokens_expr h
  | «return» e =>
    cases e with
    | none => rfl
    | some e =>
      obtain ⟨t, rest, hts, ht⟩ := begins_tokens e h
      rw [Statement.tokens, statement, wholeExpression_tokens h]
      · rfl
      · simp [hts]

/-! ## Headers -/

section Header

variable {ts rest' : List Token} {p : Param} {l : List Param} {s : Symbol}

/-- A parameter in front of a comma or a closing parenthesis. -/
lemma param_gives (hdefault : ∀ e, p.default = some e → e.Writable)
    (hs : s = .comma ∨ s = .closeParen) (rest : List Token) :
    (param (p.tokens ++ .symbol s :: rest)).Gives p (.symbol s :: rest) := by
  obtain ⟨name, d⟩ := p
  cases d with
  | none =>
    rcases hs with rfl | rfl <;> exact ⟨_, rfl⟩
  | some e =>
    have he : e.Writable := hdefault e rfl
    have hbinds : s.binds? = none := by rcases hs with rfl | rfl <;> rfl
    obtain ⟨hlt, hgives⟩ := (reads_tokens e he).gives_before (begins_tokens e he) hbinds rest
    simp only [Param.tokens, List.cons_append, param, identifier, bind, Except.bind, afterFirst,
      typing, afterNone, defaultValue, expression, hgives]
    exact ⟨_, rfl⟩

lemma params_nil (rest : List Token) : (params (.symbol .closeParen :: rest)).Gives [] rest := by
  obtain ⟨hclose, hexpect⟩ := expect_gives .closeParen rest
  rw [params, hexpect]
  exact ⟨_, rfl⟩

lemma params_last (hts : HeadFree (· = .symbol .closeParen) ts)
    (h : (param ts).Gives p (.symbol .closeParen :: rest)) : (params ts).Gives [p] rest := by
  obtain ⟨m, hm⟩ := expect_fails hts
  obtain ⟨hlt, h⟩ := h
  obtain ⟨hclose, hexpect⟩ := expect_gives .closeParen rest
  rw [params, hm]
  simp only [h, bind, Except.bind, hexpect]
  exact ⟨_, rfl⟩

lemma params_more (hts : HeadFree (· = .symbol .closeParen) ts)
    (h : (param ts).Gives p (.symbol .comma :: rest)) (h' : (params rest).Gives l rest') :
    (params ts).Gives (p :: l) rest' := by
  obtain ⟨m, hm⟩ := expect_fails hts
  obtain ⟨hlt, h⟩ := h
  obtain ⟨hlt', h'⟩ := h'
  rw [params, hm]
  simp only [h, bind, Except.bind, h']
  exact ⟨_, rfl⟩

lemma headFree_param_tokens (p : Param) (s : Symbol) (rest : List Token) :
    HeadFree (· = .symbol s) (p.tokens ++ rest) := by
  obtain ⟨name, d⟩ := p
  cases d <;> simp [HeadFree, Param.tokens]

/-- The parameters of a definition are read back up to the closing parenthesis. -/
lemma params_give (rest : List Token) : ∀ l : List Param,
    (∀ p ∈ l, ∀ e, p.default = some e → e.Writable) →
    (params (paramTokens l ++ .symbol .closeParen :: rest)).Gives l rest
  | [], _ => params_nil rest
  | [p], h => by
    have hp := param_gives (h p List.mem_cons_self) (.inr rfl) rest
    exact params_last (headFree_param_tokens p .closeParen _) hp
  | p :: p' :: l, h => by
    have hp := param_gives (h p List.mem_cons_self) (.inl rfl)
      (paramTokens (p' :: l) ++ .symbol .closeParen :: rest)
    have hmore := params_give rest (p' :: l) fun q hq => h q (List.mem_cons_of_mem _ hq)
    rw [paramTokens, List.append_assoc, List.cons_append]
    exact params_more (headFree_param_tokens p .closeParen _) hp hmore

/-- A header is read up to its colon, and what is behind it is a statement. -/
lemma header_append {f : FunctionDef} (h : f.Writable) (ts : List Token) :
    header (f.headerTokens.tail ++ ts) =
      match ts with
      | [] => .ok ⟨f.name, f.params, []⟩
      | ts => (statement ts).map fun s => ⟨f.name, f.params, [s]⟩ := by
  have hparams := params_give (.symbol .colon :: ts) f.params fun p hp => (h.param p hp).2
  have htokens : f.headerTokens.tail ++ ts = .word f.name :: .symbol .openParen ::
      (paramTokens f.params ++ .symbol .closeParen :: .symbol .colon :: ts) := by
    simp [FunctionDef.headerTokens]
  rw [htokens, header_eq hparams rfl]
  cases ts with
  | nil => rfl
  | cons t ts =>
    dsimp only [inlineBody]
    cases statement (t :: ts) <;> rfl

/-- **The line that starts a definition gives its name and its parameters.** -/
theorem header_headerTokens {f : FunctionDef} (h : f.Writable) :
    header f.headerTokens.tail = .ok ⟨f.name, f.params, []⟩ := by
  have hheader := header_append h []
  rwa [List.append_nil] at hheader

end Header

end Dataflow.Script

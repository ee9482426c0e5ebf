import Mathlib.Data.List.Forall2
import Dataflow.Proofs.Script.Content
import Dataflow.Proofs.Script.Inversion
import Dataflow.Proofs.Script.Reading

/-!
# Lines that say the same

Two scripts define the same functions if their lines correspond: each has the tokens of the other,
or both are headers that give the same, and all lines of one script are indented deeper by the same
width (`definitions_shifted`).  No line is a header and a statement as well
(`header_not_statement`), so that headers correspond in whatever place they stand.
-/

namespace Dataflow.Script

variable {ts ts' rest rest' : List Token} {l : Level} {e e' : Expr} {name : String}

/-! ## No header is a statement -/

/-- However an expression that has come this far goes on, what it leaves satisfies a condition. -/
inductive Leaves (p : List Token → Prop) : List Token → Prop where
  | intro {ts : List Token} (here : p ts)
      (free : HeadFree (fun t => t = .symbol .openBracket ∨ t = .symbol .openParen ∨
        t = .symbol .power ∨ (comparison? t).isSome) ts)
      (more : ∀ l t rest, ts = t :: rest → (l.operator? t).isSome →
        ∀ e rest', (operand l rest).Gives e rest' → Leaves p rest') : Leaves p ts

section Leaves

variable {p q : List Token → Prop}

lemma Leaves.here (h : Leaves p ts) : p ts := by
  obtain ⟨here, -, -⟩ := h
  exact here

lemma Leaves.mono (h : Leaves p ts) (hpq : ∀ ts, p ts → q ts) : Leaves q ts := by
  induction h with
  | intro here free more ih =>
    exact .intro (hpq _ here) free ih

lemma chainAfter_leaves (h : Leaves p ts) (hgives : (chainAfter l e ts).Gives e' rest) :
    Leaves p rest := by
  induction h generalizing e with
  | intro here free more ih =>
    obtain ⟨-, rfl, -⟩ | ⟨t, _, build, right, _, rfl, ht, hright, hgives⟩ := chainAfter_inv hgives
    · exact .intro here free more
    · exact ih l t _ rfl (by simp [ht]) right _ hright hgives

lemma chain_leaves (hoperand : ∀ e rest, (operand l ts).Gives e rest → Leaves p rest)
    (h : (chain l ts).Gives e rest) : Leaves p rest := by
  obtain ⟨left, rest', hleft, hafter⟩ := chain_inv h
  exact chainAfter_leaves (hoperand left rest' hleft) hafter

/-- Up to the products, an expression starts with a primary if no sign comes first. -/
lemma product_leaves (hprimary : ∀ e rest, (primary ts).Gives e rest → Leaves p rest)
    (hts : HeadFree (fun t => t = .symbol .minus ∨ t = .symbol .plus) ts)
    (h : (chain .product ts).Gives e rest) : Leaves p rest := by
  refine chain_leaves (fun e rest h => ?_) h
  rw [operand_product] at h
  obtain ⟨_, _, rfl, -⟩ | ⟨_, rfl, -⟩ | ⟨-, h⟩ := signed_inv h
  · exact absurd (.inl rfl) (hts _ rfl)
  · exact absurd (.inr rfl) (hts _ rfl)
  obtain ⟨base, rest₁, haccess, hpower⟩ := power_inv h
  obtain ⟨e₁, rest₂, hfirst, hafter⟩ := access_inv haccess
  have hleaves := hprimary e₁ rest₂ hfirst
  obtain ⟨here, free, more⟩ := hleaves
  obtain ⟨-, rfl, -⟩ | ⟨_, _, _, rfl, -⟩ | ⟨_, _, _, _, rfl, -⟩ := accessAfter_inv hafter
  · obtain ⟨-, rfl, -⟩ | ⟨_, _, rfl, -⟩ := hpower
    · exact .intro here free more
    · exact absurd (.inr (.inr (.inl rfl))) (free _ rfl)
  · exact absurd (.inl rfl) (free _ rfl)
  · exact absurd (.inr (.inl rfl)) (free _ rfl)

lemma negation_leaves (hprimary : ∀ e rest, (primary ts).Gives e rest → Leaves p rest)
    (hts : HeadFree (fun t => t = .symbol .minus ∨ t = .symbol .plus) ts)
    (hnot : HeadFree (· = .word "not") ts) (h : (negation ts).Gives e rest) : Leaves p rest := by
  obtain ⟨_, _, rfl, -⟩ | ⟨-, h⟩ := negation_inv h
  · exact absurd rfl (hnot _ rfl)
  obtain ⟨left, rest₁, hsum, hcomparison⟩ := comparison_inv h
  have hleaves : Leaves p rest₁ := by
    refine chain_leaves (fun e rest h => ?_) hsum
    rw [operand_sum] at h
    exact product_leaves hprimary hts h
  obtain ⟨-, rfl, -⟩ | ⟨t, _, op, _, rfl, ht, -⟩ := hcomparison
  · exact hleaves
  · obtain ⟨-, free, -⟩ := hleaves
    exact absurd (.inr (.inr (.inr (by simp [ht])))) (free t rfl)

lemma disjunction_leaves (hnegation : ∀ e rest, (negation ts).Gives e rest → Leaves p rest)
    (h : (chain .disjunction ts).Gives e rest) : Leaves p rest := by
  refine chain_leaves (fun e rest h => ?_) h
  rw [operand_disjunction] at h
  refine chain_leaves (fun e rest h => ?_) h
  rw [operand_conjunction] at h
  exact hnegation e rest h

end Leaves

/-- A sign that does not go on with an expression. -/
lemma leaves_sign {p : List Token → Prop} {s : Symbol} (hs : s.binds? = none)
    (hp : p (.symbol s :: rest)) : Leaves p (.symbol s :: rest) := by
  have hstops : Stops .disjunction (.symbol s :: rest) := stops_of_binds?_eq_none hs
  refine .intro hp (hstops.headFree ?_) fun l t rest' heq ht => ?_
  · rintro t (rfl | rfl | rfl | ht)
    · exact ⟨_, rfl, Nat.zero_le _⟩
    · exact ⟨_, rfl, Nat.zero_le _⟩
    · exact ⟨_, rfl, Nat.zero_le _⟩
    · exact ⟨_, binds?_of_comparison? ht, Nat.zero_le _⟩
  · rw [heq] at hstops
    exact absurd ht ((hstops.mono (Nat.zero_le _)).operatorFree t rfl)

lemma not_primary_symbol {s : Symbol} (hs : s ∉ [Symbol.openParen, .openBracket, .openBrace]) :
    ¬ (primary (.symbol s :: ts)).Gives e rest := by
  rintro ⟨hlt, h⟩
  rw [primary] at h
  · cases h
  all_goals
    rintro rfl
    simp at hs

/-- Nothing behind the parameters of a header goes on with an expression. -/
lemma leaves_result (h : resultTyping rest = .ok (.symbol .colon :: rest')) :
    Leaves (· = rest) rest := by
  obtain ⟨rfl, -⟩ | ⟨ts, rfl, -⟩ := resultTyping_inv h
  · exact leaves_sign rfl rfl
  · refine .intro rfl (by simp [HeadFree, comparison?]) fun l t ts' heq ht e ts'' hgives => ?_
    obtain ⟨rfl, rfl⟩ := List.cons.inj heq
    -- a minus sign without an operand
    have hlevel : l = .sum := by
      cases l <;> simp [Level.operator?] at ht ⊢
    subst hlevel
    rw [operand_sum] at hgives
    exact product_leaves (fun _ _ h => (not_primary_symbol (by simp) h).elim) (by simp [HeadFree])
      hgives

/-- The first token behind the name of a parameter. -/
lemma exists_sign_of_param {p : Param} {s : Symbol}
    (h : (param ts).Gives p (.symbol s :: rest)) :
    ∃ s' rest', ts = .word p.name :: .symbol s' :: rest' ∧
      (s' = .colon ∨ s' = .assign ∨ s' = s ∧ rest' = rest) := by
  obtain ⟨ts, rfl, hdefault⟩ := param_inv h
  by_cases hcolon : HeadFree (· = .symbol .colon) ts
  · rw [typing_of_headFree hcolon] at hdefault
    obtain ⟨-, heq, -⟩ | ⟨rest', e, rfl, -⟩ := defaultValue_inv hdefault
    · exact ⟨s, rest, by rw [heq], .inr (.inr ⟨rfl, rfl⟩)⟩
    · exact ⟨.assign, rest', rfl, .inr (.inl rfl)⟩
  · obtain ⟨rest', rfl⟩ := exists_of_not_headFree hcolon
    exact ⟨.colon, rest', rfl, .inl rfl⟩

/-- A sign that neither starts an expression nor goes on with one. -/
def Symbol.Separates (s : Symbol) : Prop :=
  s.binds? = none ∧ s ∉ [Symbol.openParen, .openBracket, .openBrace]

/-- No expression starts with such a sign. -/
lemma Symbol.Separates.not_negation {s : Symbol} (hs : s.Separates) :
    ¬ (negation (.symbol s :: ts)).Gives e rest := by
  intro h
  have hleaves : Leaves (fun _ => False) rest := by
    refine negation_leaves (fun e rest h => (not_primary_symbol hs.2 h).elim) ?_
      (by simp [HeadFree]) h
    have hbinds := hs.1
    simp only [HeadFree, List.head?_cons, Option.mem_some_iff, forall_eq', Token.symbol.injEq]
    rintro (rfl | rfl) <;> simp [Symbol.binds?] at hbinds
  exact hleaves.here

/-- An expression that starts with a name and such a sign is the name. -/
lemma Symbol.Separates.rest_eq {s : Symbol} (hs : s.Separates)
    (h : (chain .disjunction (.word name :: .symbol s :: ts)).Gives e rest) :
    rest = .symbol s :: ts := by
  have hnegation : ∀ e rest, (negation (.word name :: .symbol s :: ts)).Gives e rest →
      Leaves (· = .symbol s :: ts) rest := by
    intro e rest h
    obtain ⟨_, _, heq, -, h⟩ | ⟨hnot, -⟩ := negation_inv h
    · cases heq
      exact (hs.not_negation h).elim
    · refine negation_leaves (fun e rest h => ?_) (by simp [HeadFree]) hnot h
      obtain ⟨hlt, h⟩ := h
      rw [primary] at h
      cases h
      exact leaves_sign hs.1 rfl
  exact (disjunction_leaves hnegation h).here

/-- What an expression takes behind the opening parenthesis of a header, if it takes anything, is a
parameter without annotation and default. -/
lemma rest_of_params {ps : List Param} (hparams : (params ts).Gives ps rest)
    (h : (chain .disjunction ts).Gives e (.symbol .closeParen :: rest')) : rest' = rest := by
  obtain ⟨-, rfl⟩ | ⟨-, p, rest₁, hp, hrest₁⟩ := params_inv hparams
  · have hs : Symbol.closeParen.Separates := ⟨rfl, by decide⟩
    have hleaves := disjunction_leaves (p := fun _ => False)
      (fun _ _ h => (hs.not_negation h).elim) h
    exact hleaves.here.elim
  obtain ⟨s, r, rfl, hs⟩ : ∃ s r, rest₁ = .symbol s :: r ∧
      (s = .comma ∨ s = .closeParen ∧ r = rest) := by
    obtain ⟨after, _, rfl, -⟩ | ⟨rfl, -⟩ := hrest₁
    · exact ⟨.comma, after, rfl, .inl rfl⟩
    · exact ⟨.closeParen, rest, rfl, .inr ⟨rfl, rfl⟩⟩
  obtain ⟨s', r', rfl, hs'⟩ := exists_sign_of_param hp
  have hseparates : s'.Separates := by
    rcases hs' with rfl | rfl | ⟨rfl, -⟩
    · exact ⟨rfl, by decide⟩
    · exact ⟨rfl, by decide⟩
    · rcases hs with rfl | ⟨rfl, -⟩ <;> exact ⟨rfl, by decide⟩
  -- the closing parenthesis comes right behind the name
  cases hseparates.rest_eq h
  obtain ⟨⟨⟩⟩ | ⟨⟨⟩⟩ | ⟨rfl, rfl⟩ := hs'
  obtain ⟨⟨⟩⟩ | ⟨-, rfl⟩ := hs
  rfl

lemma wholeExpression_inv (h : wholeExpression ts = .ok e) : (expression ts).Gives e [] := by
  rw [wholeExpression] at h
  obtain ⟨e₁, rest, hrest, hgives, h⟩ := exists_of_read_bind h
  cases rest with
  | nil =>
    cases h
    exact ⟨hrest, hgives⟩
  | cons t rest => cases h

lemma expression_of_statement {s : Statement} (hreturn : HeadFree (· = .word "return") ts)
    (hassign : ∀ target rest, ts = .word target :: .symbol .assign :: rest → False)
    (h : statement ts = .ok s) : ∃ e, (expression ts).Gives e [] := by
  rw [statement] at h
  · cases hwhole : wholeExpression ts with
    | error m => simp [hwhole, bind, Except.bind] at h
    | ok e => exact ⟨e, wholeExpression_inv hwhole⟩
  · rintro rfl
    exact hreturn _ rfl rfl
  · rintro rest rfl
    exact hreturn _ rfl rfl
  · exact hassign

/-- **No line is a header and a statement as well.** -/
theorem header_not_statement {f : FunctionDef} {s : Statement} (hheader : header ts = .ok f) :
    statement (.word "def" :: ts) ≠ .ok s := by
  intro hstatement
  obtain ⟨name, ts, ps, rest, rest', rfl, hparams, hresult⟩ := header_inv hheader
  have hresult' : rest ≠ [] := by
    rintro rfl
    cases hresult
  -- what comes behind the parameters ends an expression that starts at the parenthesis
  have hnegation : ∀ e rest', (negation (.symbol .openParen :: ts)).Gives e rest' →
      Leaves (· ≠ []) rest' := by
    refine fun e rest' h => negation_leaves (fun e rest' h => ?_) (by simp [HeadFree])
      (by simp [HeadFree]) h
    obtain rfl := rest_of_params hparams (primary_paren_inv h)
    exact (leaves_result hresult).mono fun _ heq => heq ▸ hresult'
  have hname : Leaves (· ≠ []) (.word name :: .symbol .openParen :: ts) := by
    refine .intro (by simp) (by simp [HeadFree, comparison?]) fun l t ts' heq ht e rest' h => ?_
    obtain ⟨rfl, rfl⟩ := List.cons.inj heq
    cases l with
    | disjunction =>
      rw [operand_disjunction] at h
      refine chain_leaves (fun e rest h => ?_) h
      rw [operand_conjunction] at h
      exact hnegation e rest h
    | conjunction =>
      rw [operand_conjunction] at h
      exact hnegation e rest' h
    | sum => simp [Level.operator?] at ht
    | product => simp [Level.operator?] at ht
  obtain ⟨e, hgives⟩ := expression_of_statement (by simp [HeadFree]) (by simp) hstatement
  refine (disjunction_leaves (p := (· ≠ [])) (fun e rest h => ?_) hgives).here rfl
  refine negation_leaves (fun e rest h => ?_) (by simp [HeadFree]) (by simp [HeadFree]) h
  obtain ⟨hlt, h⟩ := h
  rw [primary] at h
  cases h
  exact hname

/-! ## Lines that correspond -/

/-- The tokens of a line, or those of a header that gives the same. -/
inductive Restates : List Token → List Token → Prop where
  | same (ts : List Token) : Restates ts ts
  | defining {ts ts' : List Token} {f : FunctionDef} (h : header ts = .ok f)
      (h' : header ts' = .ok f) : Restates (.word "def" :: ts) (.word "def" :: ts')

/-- Two lines say the same, up to widths by which all lines of either script are shifted. -/
structure Shifted (k k' : ℕ) (x x' : ℕ × List Token) : Prop where
  indent : k + x.1 = k' + x'.1
  tokens : Restates x.2 x'.2

variable {k k' n : ℕ} {x x' : ℕ × List Token} {ls ls' : List Line}

lemma Restates.symm (h : Restates ts ts') : Restates ts' ts := by
  cases h with
  | same => exact .same ts
  | defining h h' => exact .defining h' h

lemma Shifted.symm (h : Shifted k k' x x') : Shifted k' k x' x := ⟨h.indent.symm, h.tokens.symm⟩

lemma Restates.statement_eq {s : Statement} (h : Restates ts ts') (hs : statement ts = .ok s) :
    statement ts' = .ok s := by
  cases h with
  | same => exact hs
  | defining h h' => exact (header_not_statement h hs).elim

/-- Only headers are restated. -/
lemma Restates.eq_of_ne {ts₀ : List Token} (h : Restates ts ts') (hts : ts = ts₀)
    (hdef : HeadFree (· = .word "def") ts₀) : ts' = ts₀ := by
  subst hts
  cases h with
  | same => rfl
  | defining => exact absurd rfl (hdef _ rfl)

lemma Restates.header_eq {ts₀ : List Token} {f : FunctionDef} (h : Restates ts ts')
    (hts : ts = .word "def" :: ts₀) (hf : header ts₀ = .ok f) :
    ∃ ts₁, ts' = .word "def" :: ts₁ ∧ header ts₁ = .ok f := by
  subst hts
  cases h with
  | same => exact ⟨ts₀, rfl, hf⟩
  | @defining _ ts₁ f' h h' =>
    obtain rfl := Except.ok.inj (h.symm.trans hf)
    exact ⟨ts₁, rfl, h'⟩

lemma atLine_eq_ok {α : Type} {r : Except Mismatch α} {a : α} (h : atLine n r = .ok a) (m : ℕ) :
    atLine m r = .ok a := by
  cases r with
  | ok b => exact h
  | error e => simp [atLine] at h

lemma atLine_statement_shifted {l l' : Line} {s : Statement}
    (h : Shifted k k' l.content l'.content) (hl : atLine l.number (statement l.tokens) = .ok s) :
    atLine l'.number (statement l'.tokens) = .ok s := by
  cases hs : statement l.tokens with
  | error m =>
    rw [hs] at hl
    cases hl
  | ok s' =>
    rw [hs] at hl
    have hs' : statement l'.tokens = .ok s' := h.tokens.statement_eq hs
    rw [hs']
    exact atLine_eq_ok hl l'.number

lemma forall₂_takeWhile_dropWhile {α β : Type} {R : α → β → Prop} {p : α → Bool} {q : β → Bool}
    {l : List α} {l' : List β} (hpq : ∀ a b, R a b → p a = q b) (h : List.Forall₂ R l l') :
    List.Forall₂ R (l.takeWhile p) (l'.takeWhile q) ∧
      List.Forall₂ R (l.dropWhile p) (l'.dropWhile q) := by
  induction h with
  | nil => exact ⟨.nil, .nil⟩
  | @cons a b l l' hab hl ih =>
    cases hq : q b with
    | false =>
      have hp : p a = false := (hpq a b hab).trans hq
      simp [hp, hq, hab, hl]
    | true =>
      have hp : p a = true := (hpq a b hab).trans hq
      simpa [hp, hq, hab] using ih

lemma mapM_statement_shifted {ss : List Statement}
    (h : List.Forall₂ (fun l l' => Shifted k k' l.content l'.content) ls ls')
    (hls : (ls.mapM fun l => atLine l.number (statement l.tokens)) = .ok ss) :
    (ls'.mapM fun l => atLine l.number (statement l.tokens)) = .ok ss := by
  induction h generalizing ss with
  | nil => exact hls
  | @cons l l' ls ls' hl _ ih =>
    rw [List.mapM_cons] at hls ⊢
    cases hs : atLine l.number (statement l.tokens) with
    | error e => simp [hs, bind, Except.bind] at hls
    | ok s =>
      cases hmore : ls.mapM fun l => atLine l.number (statement l.tokens) with
      | error e => simp [hs, hmore, bind, Except.bind] at hls
      | ok ss' =>
        rw [atLine_statement_shifted hl hs, ih hmore]
        simpa [hs, hmore] using hls

/-- **Only differences of indentation matter.** -/
theorem definitions_shifted {fs : List FunctionDef}
    (h : List.Forall₂ (fun l l' => Shifted k k' l.content l'.content) ls ls')
    (hls : definitions ls = .ok fs) : definitions ls' = .ok fs := by
  fun_induction definitions ls generalizing ls' fs with
  | case1 =>
    cases h
    rwa [definitions]
  | case2 line rest ts htokens ih | case3 line rest ts htokens ih =>
    obtain ⟨line', rest', hl, hrest, rfl⟩ := List.forall₂_cons_left_iff.1 h
    have htokens' : line'.tokens = _ := hl.tokens.eq_of_ne htokens (by simp [HeadFree])
    rw [definitions]
    simp only [htokens']
    exact ih hrest hls
  | case4 line rest ts htokens ih =>
    obtain ⟨line', rest', hl, hrest, rfl⟩ := List.forall₂_cons_left_iff.1 h
    have hshifted : ∀ l l' : Line, Shifted k k' l.content l'.content →
        decide (line.indent < l.indent) = decide (line'.indent < l'.indent) := by
      intro l l' hll'
      have hindent := hl.indent
      have hindent' := hll'.indent
      simp only [Line.content] at hindent hindent'
      simp only [decide_eq_decide]
      omega
    obtain ⟨htake, hdrop⟩ := forall₂_takeWhile_dropWhile hshifted hrest
    have hrestates : Restates line.tokens line'.tokens := hl.tokens
    cases hheader : header ts with
    | error e => simp [hheader, atLine, bind, Except.bind] at hls
    | ok f =>
      obtain ⟨ts', htokens', hheader'⟩ := hrestates.header_eq htokens hheader
      have hok : ∀ n, atLine n (.ok f) = .ok f := fun _ => rfl
      cases hbody : (rest.takeWhile fun l => line.indent < l.indent).mapM fun l =>
          atLine l.number (statement l.tokens) with
      | error e => simp [hheader, hok, hbody, bind, Except.bind] at hls
      | ok body =>
        cases hmore : definitions (rest.dropWhile fun l => line.indent < l.indent) with
        | error e => simp [hheader, hok, hbody, hmore, bind, Except.bind] at hls
        | ok more =>
          rw [definitions]
          simp only [htokens', hheader', hok, mapM_statement_shifted htake hbody, ih hdrop hmore]
          simpa [hheader, hok, hbody, hmore, bind, Except.bind] using hls
  | case5 => simp at hls
  | case6 line rest htokens ih =>
    obtain ⟨line', rest', hl, hrest, rfl⟩ := List.forall₂_cons_left_iff.1 h
    have htokens' : line'.tokens = _ := hl.tokens.eq_of_ne htokens (by simp [HeadFree])
    rw [definitions]
    simp only [htokens']
    exact ih hrest hls

/-- **Scripts whose lines correspond define the same functions.** -/
theorem parse_shifted (k k' : ℕ) {source source' : String} {fs : List FunctionDef}
    (h : ∀ xs, contents (Text.lines source.toList) = some xs →
      ∃ xs', contents (Text.lines source'.toList) = some xs' ∧
        List.Forall₂ (Shifted k k') xs xs')
    (hparse : parse source = .ok fs) : parse source' = .ok fs := by
  rw [parse] at hparse
  cases hlines : linesOf source with
  | error e => simp [hlines, bind, Except.bind] at hparse
  | ok ls =>
    simp only [hlines, bind, Except.bind] at hparse
    obtain ⟨xs', hxs', hshifted⟩ := h _ (contents_of_linesOf hlines)
    obtain ⟨ls', hlines', rfl⟩ := linesOf_of_contents hxs'
    rw [List.forall₂_map_left_iff, List.forall₂_map_right_iff] at hshifted
    rw [parse, hlines']
    exact definitions_shifted hshifted hparse

end Dataflow.Script

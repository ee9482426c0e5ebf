import Mathlib.Data.List.Basic
import Dataflow.Script.Grammar

/-!
# What the readers of the grammar give

A reader returns with the tokens that it leaves a bound on their number, which the recursion
needs and a reader's result does not.  `Phrase.Gives` and `Ending.Gives` say what is read and
what is left, and there is one rule for each way in which a reader can come to its result.
-/

namespace Dataflow.Script

variable {α : Type} {ts rest rest' rest'' : List Token} {t : Token} {l : Level} {e e' : Expr}

/-- A reader gives something, and leaves the tokens after it. -/
def Phrase.Gives (r : Phrase α ts) (a : α) (rest : List Token) : Prop :=
  ∃ h, r = .ok (a, ⟨rest, h⟩)

/-- The same for a reader that may take no token. -/
def Ending.Gives (r : Ending α ts) (a : α) (rest : List Token) : Prop :=
  ∃ h, r = .ok (a, ⟨rest, h⟩)

/-- No token at the front satisfies a condition. -/
def HeadFree (p : Token → Prop) (ts : List Token) : Prop := ∀ t ∈ ts.head?, ¬ p t

/-! ## Signs -/

lemma expect_gives (s : Symbol) (rest : List Token) :
    (expect s (.symbol s :: rest)).Gives () rest := by
  rw [expect, if_pos rfl]
  exact ⟨_, rfl⟩

lemma expect_fails {s : Symbol} (h : HeadFree (· = .symbol s) ts) :
    ∃ m, expect s ts = .error m := by
  cases ts with
  | nil => exact ⟨_, rfl⟩
  | cons t rest =>
    have hne : t ≠ .symbol s := h t rfl
    cases t with
    | symbol t =>
      rw [expect, if_neg fun heq => hne (congrArg Token.symbol heq)]
      exact ⟨_, rfl⟩
    | _ => exact ⟨_, rfl⟩

/-! ## Chains -/

lemma chain_gives (h : (operand l ts).Gives e rest) (h' : (chainAfter l e rest).Gives e' rest') :
    (chain l ts).Gives e' rest' := by
  obtain ⟨hlt, h⟩ := h
  obtain ⟨hle, h'⟩ := h'
  rw [chain, h]
  simp only [bind, Except.bind, h']
  exact ⟨_, rfl⟩

lemma chainAfter_stop (h : HeadFree (fun t => (l.operator? t).isSome) rest) :
    (chainAfter l e rest).Gives e rest := by
  cases rest with
  | nil =>
    rw [chainAfter]
    exact ⟨_, rfl⟩
  | cons t rest =>
    have hnone : l.operator? t = none := by simpa [HeadFree] using h
    rw [chainAfter]
    simp only [hnone]
    exact ⟨_, rfl⟩

lemma chainAfter_step {build : Expr → Expr → Expr} {right : Expr} (ht : l.operator? t = some build)
    (h : (operand l rest).Gives right rest')
    (h' : (chainAfter l (build e right) rest').Gives e' rest'') :
    (chainAfter l e (t :: rest)).Gives e' rest'' := by
  obtain ⟨hlt, h⟩ := h
  obtain ⟨hle, h'⟩ := h'
  rw [chainAfter]
  simp only [ht, h, bind, Except.bind, h']
  exact ⟨_, rfl⟩

lemma operand_disjunction : operand .disjunction ts = chain .conjunction ts := by rw [operand]

lemma operand_conjunction : operand .conjunction ts = negation ts := by rw [operand]

lemma operand_sum : operand .sum ts = chain .product ts := by rw [operand]

lemma operand_product : operand .product ts = signed ts := by rw [operand]

/-! ## Negations and comparisons -/

lemma negation_not (h : (negation ts).Gives e rest) :
    (negation (.word "not" :: ts)).Gives (.not e) rest := by
  obtain ⟨hlt, h⟩ := h
  rw [negation, h]
  exact ⟨_, rfl⟩

lemma negation_other (hts : HeadFree (· = .word "not") ts) (h : (comparison ts).Gives e rest) :
    (negation ts).Gives e rest := by
  rw [negation]
  · exact h
  · rintro rest rfl
    exact hts _ rfl rfl

lemma comparison_single (h : (chain .sum ts).Gives e rest)
    (hrest : HeadFree (fun t => (comparison? t).isSome) rest) : (comparison ts).Gives e rest := by
  obtain ⟨hlt, h⟩ := h
  rw [comparison, h]
  simp only [bind, Except.bind]
  cases rest with
  | nil => exact ⟨_, rfl⟩
  | cons t rest =>
    have hnone : comparison? t = none := by simpa [HeadFree] using hrest
    simp only [hnone]
    exact ⟨_, rfl⟩

lemma comparison_pair {op : Comparison} {right : Expr} (h : (chain .sum ts).Gives e (t :: rest))
    (ht : comparison? t = some op) (h' : (chain .sum rest).Gives right rest') :
    (comparison ts).Gives (.compare op e right) rest' := by
  obtain ⟨hlt, h⟩ := h
  obtain ⟨hlt', h'⟩ := h'
  rw [comparison, h]
  simp only [bind, Except.bind, ht, h']
  exact ⟨_, rfl⟩

/-! ## Signs and powers -/

lemma signed_minus (h : (signed ts).Gives e rest) :
    (signed (.symbol .minus :: ts)).Gives (.negate e) rest := by
  obtain ⟨hlt, h⟩ := h
  rw [signed, h]
  exact ⟨_, rfl⟩

lemma signed_plus (h : (signed ts).Gives e rest) :
    (signed (.symbol .plus :: ts)).Gives e rest := by
  obtain ⟨hlt, h⟩ := h
  rw [signed, h]
  exact ⟨_, rfl⟩

lemma signed_other (hts : HeadFree (fun t => t = .symbol .minus ∨ t = .symbol .plus) ts)
    (h : (power ts).Gives e rest) : (signed ts).Gives e rest := by
  rw [signed]
  · exact h
  · rintro rest rfl
    exact hts _ rfl (.inl rfl)
  · rintro rest rfl
    exact hts _ rfl (.inr rfl)

lemma power_single (h : (access ts).Gives e rest) (hrest : HeadFree (· = .symbol .power) rest) :
    (power ts).Gives e rest := by
  obtain ⟨hlt, h⟩ := h
  rw [power, h]
  simp only [bind, Except.bind]
  split
  · exact absurd rfl (hrest _ rfl)
  · exact ⟨_, rfl⟩

lemma power_pair {exponent : Expr} (h : (access ts).Gives e (.symbol .power :: rest))
    (h' : (signed rest).Gives exponent rest') :
    (power ts).Gives (.arithmetic .power e exponent) rest' := by
  obtain ⟨hlt, h⟩ := h
  obtain ⟨hlt', h'⟩ := h'
  rw [power, h]
  simp only [bind, Except.bind, h']
  exact ⟨_, rfl⟩

/-! ## Indices and calls -/

lemma access_gives (h : (primary ts).Gives e rest) (h' : (accessAfter e rest).Gives e' rest') :
    (access ts).Gives e' rest' := by
  obtain ⟨hlt, h⟩ := h
  obtain ⟨hle, h'⟩ := h'
  rw [access, h]
  simp only [bind, Except.bind, h']
  exact ⟨_, rfl⟩

lemma accessAfter_stop
    (h : HeadFree (fun t => t = .symbol .openBracket ∨ t = .symbol .openParen) ts) :
    (accessAfter e ts).Gives e ts := by
  rw [accessAfter]
  · exact ⟨_, rfl⟩
  · rintro rest rfl
    exact h _ rfl (.inl rfl)
  · rintro rest rfl
    exact h _ rfl (.inr rfl)

lemma accessAfter_index {index : Expr}
    (h : (chain .disjunction ts).Gives index (.symbol .closeBracket :: rest))
    (h' : (accessAfter (.index e index) rest).Gives e' rest') :
    (accessAfter e (.symbol .openBracket :: ts)).Gives e' rest' := by
  obtain ⟨hlt, h⟩ := h
  obtain ⟨hle, h'⟩ := h'
  obtain ⟨hclose, hexpect⟩ := expect_gives .closeBracket rest
  rw [accessAfter]
  simp only [h, bind, Except.bind, hexpect, h']
  exact ⟨_, rfl⟩

lemma accessAfter_call {name : String} {args : List Expr}
    (h : (items .closeParen ts).Gives args rest)
    (h' : (accessAfter (.call name args) rest).Gives e' rest') :
    (accessAfter (.variable name) (.symbol .openParen :: ts)).Gives e' rest' := by
  obtain ⟨hlt, h⟩ := h
  obtain ⟨hle, h'⟩ := h'
  rw [accessAfter]
  simp only [h, bind, Except.bind, h']
  exact ⟨_, rfl⟩

/-! ## Primaries -/

lemma primary_int (n : Int64) : (primary (.int n :: rest)).Gives (.literal (.int n)) rest := by
  rw [primary]
  exact ⟨_, rfl⟩

lemma primary_text (s : String) : (primary (.text s :: rest)).Gives (.literal (.text s)) rest := by
  rw [primary]
  exact ⟨_, rfl⟩

lemma primary_word (name : String) : (primary (.word name :: rest)).Gives (ofName name) rest := by
  rw [primary]
  exact ⟨_, rfl⟩

lemma primary_paren (h : (chain .disjunction ts).Gives e (.symbol .closeParen :: rest)) :
    (primary (.symbol .openParen :: ts)).Gives e rest := by
  obtain ⟨hlt, h⟩ := h
  obtain ⟨hclose, hexpect⟩ := expect_gives .closeParen rest
  rw [primary]
  simp only [h, bind, Except.bind, hexpect]
  exact ⟨_, rfl⟩

lemma primary_list {l : List Expr} (h : (items .closeBracket ts).Gives l rest) :
    (primary (.symbol .openBracket :: ts)).Gives (.list l) rest := by
  obtain ⟨hlt, h⟩ := h
  rw [primary]
  simp only [h, bind, Except.bind]
  exact ⟨_, rfl⟩

lemma primary_map {l : List (Expr × Expr)} (h : (entries ts).Gives l rest) :
    (primary (.symbol .openBrace :: ts)).Gives (.map l) rest := by
  obtain ⟨hlt, h⟩ := h
  rw [primary]
  simp only [h, bind, Except.bind]
  exact ⟨_, rfl⟩

/-! ## Items and entries -/

lemma items_nil (close : Symbol) (rest : List Token) :
    (items close (.symbol close :: rest)).Gives [] rest := by
  obtain ⟨hclose, hexpect⟩ := expect_gives close rest
  rw [items, hexpect]
  exact ⟨_, rfl⟩

lemma items_last {close : Symbol} (hts : HeadFree (· = .symbol close) ts)
    (h : (chain .disjunction ts).Gives e (.symbol close :: rest)) (hclose : close ≠ .comma) :
    (items close ts).Gives [e] rest := by
  obtain ⟨m, hm⟩ := expect_fails hts
  obtain ⟨hlt, h⟩ := h
  obtain ⟨hlt', hexpect⟩ := expect_gives close rest
  rw [items, hm]
  simp only [h, bind, Except.bind]
  split
  · rename_i heq
    exact absurd (Token.symbol.inj (List.cons.inj heq).1) hclose
  · simp only [hexpect]
    exact ⟨_, rfl⟩

lemma items_more {close : Symbol} {l : List Expr} (hts : HeadFree (· = .symbol close) ts)
    (h : (chain .disjunction ts).Gives e (.symbol .comma :: rest))
    (h' : (items close rest).Gives l rest') : (items close ts).Gives (e :: l) rest' := by
  obtain ⟨m, hm⟩ := expect_fails hts
  obtain ⟨hlt, h⟩ := h
  obtain ⟨hlt', h'⟩ := h'
  rw [items, hm]
  simp only [h, bind, Except.bind, h']
  exact ⟨_, rfl⟩

lemma entries_nil (rest : List Token) :
    (entries (.symbol .closeBrace :: rest)).Gives [] rest := by
  obtain ⟨hclose, hexpect⟩ := expect_gives .closeBrace rest
  rw [entries, hexpect]
  exact ⟨_, rfl⟩

lemma entries_last (hts : HeadFree (· = .symbol .closeBrace) ts)
    (h : (chain .disjunction ts).Gives e (.symbol .colon :: rest))
    (h' : (chain .disjunction rest).Gives e' (.symbol .closeBrace :: rest')) :
    (entries ts).Gives [(e, e')] rest' := by
  obtain ⟨m, hm⟩ := expect_fails hts
  obtain ⟨hlt, h⟩ := h
  obtain ⟨hlt', h'⟩ := h'
  obtain ⟨_, hcolon⟩ := expect_gives .colon rest
  obtain ⟨_, hclose⟩ := expect_gives .closeBrace rest'
  rw [entries, hm]
  simp only [h, bind, Except.bind, hcolon, h', hclose]
  exact ⟨_, rfl⟩

lemma entries_more {l : List (Expr × Expr)} (hts : HeadFree (· = .symbol .closeBrace) ts)
    (h : (chain .disjunction ts).Gives e (.symbol .colon :: rest))
    (h' : (chain .disjunction rest).Gives e' (.symbol .comma :: rest'))
    (h'' : (entries rest').Gives l rest'') : (entries ts).Gives ((e, e') :: l) rest'' := by
  obtain ⟨m, hm⟩ := expect_fails hts
  obtain ⟨hlt, h⟩ := h
  obtain ⟨hlt', h'⟩ := h'
  obtain ⟨_, hcolon⟩ := expect_gives .colon rest
  obtain ⟨hlt'', h''⟩ := h''
  rw [entries, hm]
  simp only [h, bind, Except.bind, hcolon, h', h'']
  exact ⟨_, rfl⟩

end Dataflow.Script

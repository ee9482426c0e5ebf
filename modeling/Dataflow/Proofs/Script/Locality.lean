import Dataflow.Proofs.Script.Inversion

/-!
# Readers look no further than one token

What a reader of the grammar takes is settled when it has seen the first token that it leaves: with
any others behind that token it takes the same tokens and gives the same (`Local`).  This holds of
every reader of expressions if it holds of those that the reader calls (`local_expressions`).
-/

namespace Dataflow.Script

variable {α : Type} {ts : List Token} {t : Token} {l : Level} {e' : Expr}

/-- A reader gives something and leaves `t :: w`, and with any other tokens behind `t` it gives the
same and leaves these. -/
def Takes (gives : List Token → α → List Token → Prop) (ts : List Token) (a : α) (t : Token)
    (w : List Token) : Prop :=
  ∃ u, ts = u ++ t :: w ∧ ∀ w', gives (u ++ t :: w') a (t :: w')

/-- What a reader gives does not depend on the tokens behind the first one that it leaves. -/
def Local (gives : List Token → α → List Token → Prop) (ts : List Token) : Prop :=
  ∀ a t w, gives ts a (t :: w) → Takes gives ts a t w

/-- What a reader of phrases gives does not depend on the tokens behind the first one it leaves. -/
abbrev LocalPhrase (read : (ts : List Token) → Phrase α ts) : List Token → Prop :=
  Local fun ts a rest => (read ts).Gives a rest

/-- What a reader of endings gives does not depend on the tokens behind the first one it leaves. -/
abbrev LocalEnding (read : (ts : List Token) → Ending α ts) : List Token → Prop :=
  Local fun ts a rest => (read ts).Gives a rest

/-- Tokens behind the first one that a reader leaves can be replaced. -/
lemma Local.replace {gives : List Token → α → List Token → Prop} {a : α} {u w : List Token}
    (h : Local gives (u ++ t :: w)) (hgives : gives (u ++ t :: w) a (t :: w)) (w' : List Token) :
    gives (u ++ t :: w') a (t :: w') := by
  obtain ⟨u', hu', hmore⟩ := h a t w hgives
  obtain rfl := List.append_cancel_right hu'
  exact hmore w'

/-- The next reader may have taken tokens before. -/
lemma Local.before {gives : List Token → α → List Token → Prop} (h : Local gives ts) {a : α}
    {v w : List Token} {t : Token} (hgives : gives ts a (v ++ t :: w)) :
    ∃ u, ts = u ++ (v ++ t :: w) ∧ ∀ w', gives (u ++ (v ++ t :: w')) a (v ++ t :: w') := by
  cases v with
  | nil => exact h a t w hgives
  | cons t' v =>
    obtain ⟨u, hu, hmore⟩ := h a t' (v ++ t :: w) hgives
    exact ⟨u, hu, fun w' => hmore (v ++ t :: w')⟩

/-- Two readers take tokens one after the other. -/
lemma takes_append {gives : List Token → α → List Token → Prop} {a : α} {u v : List Token}
    {t : Token} (h : ∀ w', gives (u ++ (v ++ t :: w')) a (t :: w')) (w : List Token) :
    Takes gives (u ++ (v ++ t :: w)) a t w := by
  refine ⟨u ++ v, (List.append_assoc u v _).symm, fun w' => ?_⟩
  rw [List.append_assoc]
  exact h w'

/-- The first token stays when tokens behind it are changed. -/
lemma HeadFree.replace {p : Token → Prop} {u w : List Token} (h : HeadFree p (u ++ t :: w))
    (w' : List Token) : HeadFree p (u ++ t :: w') := by
  cases u with
  | nil => exact h
  | cons t' u => exact h

/-- A token that is an expression by itself. -/
lemma local_primary {t : Token} {e : Expr}
    (h : ∀ rest, primary (t :: rest) = .ok (e, afterFirst t rest)) (ts : List Token) :
    LocalPhrase primary (t :: ts) := by
  rintro a t' w ⟨hlt, hgives⟩
  rw [h] at hgives
  cases hgives
  exact ⟨[t], rfl, fun w' => ⟨_, h _⟩⟩

/-! ### One reader, given those that it calls -/

lemma chain_local (hoperand : LocalPhrase (operand l) ts)
    (hafter : ∀ left rest, rest.length < ts.length → LocalEnding (chainAfter l left) rest) :
    LocalPhrase (chain l) ts := by
  intro e t w h
  obtain ⟨left, rest, hleft, hrest⟩ := chain_inv h
  obtain ⟨v, rfl, hmore⟩ := hafter left rest hleft.1 e t w hrest
  obtain ⟨u, rfl, hfirst⟩ := hoperand.before hleft
  exact takes_append (fun w' => chain_gives (hfirst w') (hmore w')) w

lemma chainAfter_local_stop (ht : l.operator? t = none) (ts : List Token) :
    LocalEnding (chainAfter l e') (t :: ts) := by
  intro e t' w h
  obtain ⟨rfl, heq, hfree⟩ | ⟨_, _, build, _, _, heq, hbuild, -⟩ := chainAfter_inv h
  · rw [← heq] at hfree ⊢
    exact ⟨[], rfl, fun w' => chainAfter_stop (hfree.replace (u := []) w')⟩
  · cases heq
    cases ht.symm.trans hbuild

lemma chainAfter_local_step {build : Expr → Expr → Expr} (ht : l.operator? t = some build)
    (hoperand : LocalPhrase (operand l) ts)
    (hafter : ∀ right rest, rest.length < ts.length →
      LocalEnding (chainAfter l (build e' right)) rest) :
    LocalEnding (chainAfter l e') (t :: ts) := by
  intro e t' w h
  obtain ⟨-, -, hfree⟩ | ⟨_, _, _, right, rest, heq, hbuild, hright, hrest⟩ := chainAfter_inv h
  · exact absurd (by simp [ht]) (hfree t rfl)
  · cases heq
    obtain rfl := Option.some.inj (ht.symm.trans hbuild)
    obtain ⟨v, rfl, hmore⟩ := hafter right rest hright.1 e t' w hrest
    obtain ⟨u, rfl, hfirst⟩ := hoperand.before hright
    exact takes_append (u := t :: u) (fun w' => chainAfter_step ht (hfirst w') (hmore w')) w

lemma signed_local_minus (hsigned : LocalPhrase signed ts) :
    LocalPhrase signed (.symbol .minus :: ts) := by
  intro e t w h
  obtain ⟨rest, e₁, heq, rfl, hmore⟩ | ⟨rest, heq, -⟩ | ⟨hfree, -⟩ := signed_inv h
  · cases heq
    obtain ⟨u, rfl, hu⟩ := hsigned e₁ t w hmore
    exact ⟨.symbol .minus :: u, rfl, fun w' => signed_minus (hu w')⟩
  · cases heq
  · exact absurd (.inl rfl) (hfree _ rfl)

lemma signed_local_plus (hsigned : LocalPhrase signed ts) :
    LocalPhrase signed (.symbol .plus :: ts) := by
  intro e t w h
  obtain ⟨rest, e₁, heq, -⟩ | ⟨rest, heq, hmore⟩ | ⟨hfree, -⟩ := signed_inv h
  · cases heq
  · cases heq
    obtain ⟨u, rfl, hu⟩ := hsigned e t w hmore
    exact ⟨.symbol .plus :: u, rfl, fun w' => signed_plus (hu w')⟩
  · exact absurd (.inr rfl) (hfree _ rfl)

lemma signed_local_other (hminus : ∀ rest, ts = .symbol .minus :: rest → False)
    (hplus : ∀ rest, ts = .symbol .plus :: rest → False)
    (hpower : LocalPhrase power ts) : LocalPhrase signed ts := by
  intro e t w h
  obtain ⟨rest, _, heq, -⟩ | ⟨rest, heq, -⟩ | ⟨hfree, hmore⟩ := signed_inv h
  · exact (hminus rest heq).elim
  · exact (hplus rest heq).elim
  · obtain ⟨u, rfl, hu⟩ := hpower e t w hmore
    exact ⟨u, rfl, fun w' => signed_other (hfree.replace w') (hu w')⟩

lemma power_local (haccess : LocalPhrase access ts)
    (hsigned : ∀ rest, rest.length < ts.length → ∀ after, rest = .symbol .power :: after →
      LocalPhrase signed after) :
    LocalPhrase power ts := by
  intro e t w h
  obtain ⟨base, rest, hbase, ⟨rfl, rfl, hfree⟩ | ⟨after, exponent, rfl, rfl, hexponent⟩⟩ :=
    power_inv h
  · obtain ⟨u, rfl, hu⟩ := haccess e t w hbase
    exact ⟨u, rfl, fun w' => power_single (hu w') (hfree.replace (u := []) w')⟩
  · obtain ⟨v, rfl, hmore⟩ := hsigned _ hbase.1 after rfl exponent t w hexponent
    obtain ⟨u, rfl, hfirst⟩ := haccess.before (v := .symbol .power :: v) hbase
    exact takes_append (v := .symbol .power :: v)
      (fun w' => power_pair (hfirst w') (hmore w')) w

lemma access_local (hprimary : LocalPhrase primary ts)
    (hafter : ∀ e' rest, rest.length < ts.length → LocalEnding (accessAfter e') rest) :
    LocalPhrase access ts := by
  intro e t w h
  obtain ⟨e', rest, hfront, hrest⟩ := access_inv h
  obtain ⟨v, rfl, hmore⟩ := hafter e' rest hfront.1 e t w hrest
  obtain ⟨u, rfl, hfirst⟩ := hprimary.before hfront
  exact takes_append (fun w' => access_gives (hfirst w') (hmore w')) w

lemma accessAfter_local_index
    (hindex : LocalPhrase (chain .disjunction) ts)
    (hafter : ∀ index (rest : List Token), rest.length < ts.length →
      ∀ after : List Token, after.length < rest.length →
      LocalEnding (accessAfter (.index e' index)) after) :
    LocalEnding (accessAfter e') (.symbol .openBracket :: ts) := by
  intro e t w h
  obtain ⟨-, -, hfree⟩ | ⟨_, index, rest, heq, hfront, hrest⟩ | ⟨_, _, _, _, heq, -⟩ :=
    accessAfter_inv h
  · exact absurd (.inl rfl) (hfree _ rfl)
  · cases heq
    obtain ⟨v, rfl, hmore⟩ := hafter index _ hfront.1 rest (Nat.lt_succ_self _) e t w hrest
    obtain ⟨u, rfl, hfirst⟩ := hindex.before (v := .symbol .closeBracket :: v) hfront
    exact takes_append (u := .symbol .openBracket :: u) (v := .symbol .closeBracket :: v)
      (fun w' => accessAfter_index (hfirst w') (hmore w')) w
  · cases heq

lemma accessAfter_local_call {name : String}
    (hargs : LocalPhrase (items .closeParen) ts)
    (hafter : ∀ args rest, rest.length < ts.length →
      LocalEnding (accessAfter (.call name args)) rest) :
    LocalEnding (accessAfter (.variable name)) (.symbol .openParen :: ts) := by
  intro e t w h
  obtain ⟨-, -, hfree⟩ | ⟨_, _, _, heq, -⟩ | ⟨_, _, args, rest, heq, hname, hfront, hrest⟩ :=
    accessAfter_inv h
  · exact absurd (.inr rfl) (hfree _ rfl)
  · cases heq
  · cases heq
    cases hname
    obtain ⟨v, rfl, hmore⟩ := hafter args rest hfront.1 e t w hrest
    obtain ⟨u, rfl, hfirst⟩ := hargs.before hfront
    exact takes_append (u := .symbol .openParen :: u)
      (fun w' => accessAfter_call (hfirst w') (hmore w')) w

lemma accessAfter_local_stop (hbracket : ∀ rest, ts = .symbol .openBracket :: rest → False)
    (hparen : ∀ rest name, ts = .symbol .openParen :: rest → e' = .variable name → False) :
    LocalEnding (accessAfter e') ts := by
  intro e t w h
  obtain ⟨rfl, rfl, hfree⟩ | ⟨rest, _, _, heq, -⟩ | ⟨rest, name, _, _, heq, hname, -⟩ :=
    accessAfter_inv h
  · exact ⟨[], rfl, fun w' => accessAfter_stop (hfree.replace (u := []) w')⟩
  · exact (hbracket rest heq).elim
  · exact (hparen rest name heq hname).elim

lemma items_local_nil {close : Symbol} (hexpect : (expect close ts).Gives () rest) :
    LocalPhrase (items close) ts := by
  intro l t w h
  obtain rfl := expect_inv hexpect
  obtain ⟨rfl, heq⟩ | ⟨hfree, -⟩ := items_inv h
  · cases heq
    exact ⟨[.symbol close], rfl, fun w' => items_nil close _⟩
  · exact absurd rfl (hfree _ rfl)

lemma items_local_cons {close : Symbol} {m : Mismatch} (hexpect : expect close ts = .error m)
    (hitem : LocalPhrase (chain .disjunction) ts)
    (hitems : ∀ rest, rest.length < ts.length → ∀ after, rest = .symbol .comma :: after →
      LocalPhrase (items close) after) :
    LocalPhrase (items close) ts := by
  intro l t w h
  obtain ⟨rfl, rfl⟩ | ⟨hfree, e, rest, he, hrest⟩ := items_inv h
  · exact absurd rfl (headFree_of_expect hexpect _ rfl)
  obtain ⟨after, more, rfl, rfl, hafter⟩ | ⟨rfl, rfl, hclose⟩ := hrest
  · obtain ⟨v, rfl, hmore⟩ := hitems _ he.1 after rfl more t w hafter
    obtain ⟨u, rfl, hfirst⟩ := hitem.before (v := .symbol .comma :: v) he
    exact takes_append (v := .symbol .comma :: v)
      (fun w' => items_more (hfree.replace _) (hfirst w') (hmore w')) w
  · obtain ⟨u, rfl, hfirst⟩ := hitem.before (v := [.symbol close]) he
    exact takes_append (v := [.symbol close])
      (fun w' => items_last (hfree.replace _) (hfirst w') hclose) w

lemma entries_local_nil (hexpect : (expect .closeBrace ts).Gives () rest) :
    LocalPhrase entries ts := by
  intro l t w h
  obtain rfl := expect_inv hexpect
  obtain ⟨rfl, heq⟩ | ⟨hfree, -⟩ := entries_inv h
  · cases heq
    exact ⟨[.symbol .closeBrace], rfl, fun w' => entries_nil _⟩
  · exact absurd rfl (hfree _ rfl)

/-- A key and a value, with the colon between them. -/
lemma entry_takes {rest v w : List Token} {key value : Expr}
    (hkey : LocalPhrase (chain .disjunction) ts)
    (hvalue : LocalPhrase (chain .disjunction) rest)
    (h : (chain .disjunction ts).Gives key (.symbol .colon :: rest))
    (h' : (chain .disjunction rest).Gives value (v ++ t :: w)) :
    ∃ u, ts = u ++ (v ++ t :: w) ∧ ∀ w', ∃ rest',
      (chain .disjunction (u ++ (v ++ t :: w'))).Gives key (.symbol .colon :: rest') ∧
        (chain .disjunction rest').Gives value (v ++ t :: w') := by
  obtain ⟨x, rfl, hsecond⟩ := hvalue.before h'
  rw [← List.append_assoc] at h
  obtain ⟨u, rfl, hfirst⟩ := hkey.before (v := .symbol .colon :: (x ++ v)) h
  refine ⟨u ++ .symbol .colon :: x, by simp, fun w' => ⟨x ++ (v ++ t :: w'), ?_, hsecond w'⟩⟩
  have hkey' := hfirst w'
  rw [List.cons_append, List.append_assoc] at hkey'
  rw [List.append_assoc]
  exact hkey'

lemma entries_local_cons {m : Mismatch} (hexpect : expect .closeBrace ts = .error m)
    (hkey : LocalPhrase (chain .disjunction) ts)
    (hvalue : ∀ rest : List Token, rest.length < ts.length →
      ∀ rest' : List Token, rest'.length < rest.length → LocalPhrase (chain .disjunction) rest')
    (hentries : ∀ rest : List Token, rest.length < ts.length →
      ∀ rest' : List Token, rest'.length < rest.length →
        ∀ rest'' : List Token, rest''.length < rest'.length →
          ∀ after, rest'' = .symbol .comma :: after → LocalPhrase entries after) :
    LocalPhrase entries ts := by
  intro l t w h
  obtain ⟨rfl, rfl⟩ | ⟨hfree, key, value, rest₁, rest₂, hgives, hgives', hrest⟩ := entries_inv h
  · exact absurd rfl (headFree_of_expect hexpect _ rfl)
  have hvalue' := hvalue _ hgives.1 rest₁ (Nat.lt_succ_self _)
  obtain ⟨after, more, rfl, rfl, hafter⟩ | ⟨rfl, rfl⟩ := hrest
  · obtain ⟨x, rfl, hmore⟩ := hentries _ hgives.1 rest₁ (Nat.lt_succ_self _) _ hgives'.1 after rfl
      more t w hafter
    obtain ⟨u, rfl, hentry⟩ := entry_takes (v := .symbol .comma :: x) hkey hvalue' hgives hgives'
    refine takes_append (v := .symbol .comma :: x) (fun w' => ?_) w
    obtain ⟨rest', hkey', hvalue'⟩ := hentry w'
    exact entries_more (hfree.replace _) hkey' hvalue' (hmore w')
  · obtain ⟨u, rfl, hentry⟩ := entry_takes (v := [.symbol .closeBrace]) hkey hvalue' hgives hgives'
    refine takes_append (v := [.symbol .closeBrace]) (fun w' => ?_) w
    obtain ⟨rest', hkey', hvalue'⟩ := hentry w'
    exact entries_last (hfree.replace _) hkey' hvalue'

lemma primary_local_paren
    (hinner : LocalPhrase (chain .disjunction) ts) :
    LocalPhrase primary (.symbol .openParen :: ts) := by
  intro e t w h
  obtain ⟨u, rfl, hu⟩ := hinner.before (v := [.symbol .closeParen]) (primary_paren_inv h)
  exact takes_append (u := .symbol .openParen :: u) (v := [.symbol .closeParen])
    (fun w' => primary_paren (hu w')) w

lemma primary_local_list
    (hitems : LocalPhrase (items .closeBracket) ts) :
    LocalPhrase primary (.symbol .openBracket :: ts) := by
  intro e t w h
  obtain ⟨l, rfl, hl⟩ := primary_list_inv h
  obtain ⟨u, rfl, hu⟩ := hitems l t w hl
  exact ⟨.symbol .openBracket :: u, rfl, fun w' => primary_list (hu w')⟩

lemma primary_local_map (hentries : LocalPhrase entries ts) :
    LocalPhrase primary (.symbol .openBrace :: ts) := by
  intro e t w h
  obtain ⟨l, rfl, hl⟩ := primary_map_inv h
  obtain ⟨u, rfl, hu⟩ := hentries l t w hl
  exact ⟨.symbol .openBrace :: u, rfl, fun w' => primary_map (hu w')⟩

lemma negation_local_not (hnegation : LocalPhrase negation ts) :
    LocalPhrase negation (.word "not" :: ts) := by
  intro e t w h
  obtain ⟨rest, e₁, heq, rfl, hmore⟩ | ⟨hfree, -⟩ := negation_inv h
  · cases heq
    obtain ⟨u, rfl, hu⟩ := hnegation e₁ t w hmore
    exact ⟨.word "not" :: u, rfl, fun w' => negation_not (hu w')⟩
  · exact absurd rfl (hfree _ rfl)

lemma negation_local_other (hnot : ∀ rest, ts = .word "not" :: rest → False)
    (hcomparison : LocalPhrase comparison ts) : LocalPhrase negation ts := by
  intro e t w h
  obtain ⟨rest, _, heq, -⟩ | ⟨hfree, hmore⟩ := negation_inv h
  · exact (hnot rest heq).elim
  · obtain ⟨u, rfl, hu⟩ := hcomparison e t w hmore
    exact ⟨u, rfl, fun w' => negation_other (hfree.replace w') (hu w')⟩

lemma comparison_local (hleft : LocalPhrase (chain .sum) ts)
    (hright : ∀ rest, rest.length < ts.length → ∀ t after, rest = t :: after →
      LocalPhrase (chain .sum) after) :
    LocalPhrase comparison ts := by
  intro e t w h
  obtain ⟨left, rest, hfront, ⟨rfl, rfl, hfree⟩ | ⟨t', after, op, right, rfl, ht', rfl, hafter⟩⟩ :=
    comparison_inv h
  · obtain ⟨u, rfl, hu⟩ := hleft e t w hfront
    exact ⟨u, rfl, fun w' => comparison_single (hu w') (hfree.replace (u := []) w')⟩
  · obtain ⟨v, rfl, hmore⟩ := hright _ hfront.1 t' after rfl right t w hafter
    obtain ⟨u, rfl, hfirst⟩ := hleft.before (v := t' :: v) hfront
    exact takes_append (v := t' :: v) (fun w' => comparison_pair (hfirst w') ht' (hmore w')) w

/-! ### All of them -/

/-- **The readers of expressions look no further than one token.** -/
theorem local_expressions :
    (∀ l ts, LocalPhrase (chain l) ts) ∧
    (∀ l e ts, LocalEnding (chainAfter l e) ts) ∧
    (∀ l ts, LocalPhrase (operand l) ts) ∧
    (∀ ts, LocalPhrase signed ts) ∧
    (∀ ts, LocalPhrase power ts) ∧
    (∀ ts, LocalPhrase access ts) ∧
    (∀ e ts, LocalEnding (accessAfter e) ts) ∧
    (∀ close ts, LocalPhrase (items close) ts) ∧
    (∀ ts, LocalPhrase primary ts) ∧
    (∀ ts, LocalPhrase entries ts) ∧
    (∀ ts, LocalPhrase negation ts) ∧
    (∀ ts, LocalPhrase comparison ts) := by
  apply chain.mutual_induct
  case case1 => exact fun l ts => chain_local
  case case2 =>
    intro l left e t w h
    obtain ⟨-, heq, -⟩ | ⟨_, _, _, _, _, heq, -⟩ := chainAfter_inv h <;> cases heq
  case case3 => exact fun l left t rest ht => chainAfter_local_stop ht rest
  case case4 => exact fun l left t rest build => chainAfter_local_step
  case case5 => exact fun ts h => by simpa only [LocalPhrase, operand_disjunction] using h
  case case6 => exact fun ts h => by simpa only [LocalPhrase, operand_conjunction] using h
  case case7 => exact fun ts h => by simpa only [LocalPhrase, operand_sum] using h
  case case8 => exact fun ts h => by simpa only [LocalPhrase, operand_product] using h
  case case9 => exact fun rest => signed_local_minus
  case case10 => exact fun rest => signed_local_plus
  case case11 => exact fun ts => signed_local_other
  case case12 => exact fun ts => power_local
  case case13 => exact fun ts => access_local
  case case14 => exact fun e rest => accessAfter_local_index
  case case15 => exact fun rest name => accessAfter_local_call
  case case16 =>
    intro e rest hname
    exact accessAfter_local_stop (fun _ heq => by cases heq) fun _ name _ => hname name
  case case17 =>
    intro e ts hbracket hparen
    exact accessAfter_local_stop hbracket fun rest _ heq _ => hparen rest heq
  case case18 => exact fun close ts rest hexpect => items_local_nil ⟨rest.2, hexpect⟩
  case case19 => exact fun close ts m => items_local_cons
  case case20 =>
    rintro e t w ⟨hlt, -⟩
    exact absurd hlt (Nat.not_lt_zero _)
  case case21 => exact fun n => local_primary fun rest => by rw [primary]
  case case22 => exact fun x => local_primary fun rest => by rw [primary]
  case case23 => exact fun s => local_primary fun rest => by rw [primary]
  case case24 => exact fun name => local_primary fun rest => by rw [primary]
  case case25 => exact fun rest => primary_local_paren
  case case26 => exact fun rest => primary_local_list
  case case27 => exact fun rest => primary_local_map
  case case28 =>
    rintro rest s hparen hbracket hbrace e t w ⟨hlt, h⟩
    rw [primary] at h
    · cases h
    all_goals assumption
  case case29 => exact fun ts rest hexpect => entries_local_nil ⟨rest.2, hexpect⟩
  case case30 => exact fun ts m => entries_local_cons
  case case31 => exact fun rest => negation_local_not
  case case32 => exact fun ts => negation_local_other
  case case33 => exact fun ts => comparison_local

/-- **An expression is settled with the first token behind it.** -/
theorem expression_local (ts : List Token) : LocalPhrase expression ts :=
  local_expressions.1 .disjunction ts

/-! ### Parameters -/

lemma defaultValue_none (h : HeadFree (· = .symbol .assign) ts) :
    (defaultValue ts).Gives none ts := by
  unfold defaultValue
  split
  · exact absurd rfl (h _ rfl)
  · exact ⟨_, rfl⟩

lemma defaultValue_some {e : Expr} {rest : List Token} (h : (expression ts).Gives e rest) :
    (defaultValue (.symbol .assign :: ts)).Gives (some e) rest := by
  obtain ⟨hlt, h⟩ := h
  rw [defaultValue, h]
  exact ⟨_, rfl⟩

lemma param_named {name : String} {d : Option Expr} {rest : List Token}
    (h : (defaultValue (typing ts).1).Gives d rest) :
    (param (.word name :: ts)).Gives ⟨name, d⟩ rest := by
  obtain ⟨hle, h⟩ := h
  rw [param]
  simp only [identifier, bind, Except.bind, afterFirst, h]
  exact ⟨_, rfl⟩

lemma skipTyping_local_cons {depth depth' : Nat}
    (h : ∀ rest, skipTyping depth (t :: rest) = skipTyping depth' rest)
    (hskip : Local (fun ts (_ : Unit) rest => skipTyping depth' ts = rest) ts) :
    Local (fun ts (_ : Unit) rest => skipTyping depth ts = rest) (t :: ts) := by
  intro a t' w hgives
  obtain ⟨u, rfl, hu⟩ := hskip a t' w ((h ts).symm.trans hgives)
  exact ⟨t :: u, rfl, fun w' => (h _).trans (hu w')⟩

lemma skipTyping_local_stop {depth : Nat} (h : ∀ rest, skipTyping depth (t :: rest) = t :: rest)
    (ts : List Token) : Local (fun ts (_ : Unit) rest => skipTyping depth ts = rest) (t :: ts) := by
  intro a t' w hgives
  cases (h ts).symm.trans hgives
  exact ⟨[], rfl, h⟩

/-- Where an annotation ends is settled with the token that it ends in front of. -/
lemma skipTyping_local (depth : Nat) (ts : List Token) :
    Local (fun ts (_ : Unit) rest => skipTyping depth ts = rest) ts := by
  fun_induction skipTyping depth ts with
  | case1 depth =>
    intro a t w h
    rw [skipTyping] at h
    cases h
  | case2 depth rest ih | case3 depth rest ih | case4 rest depth ih | case5 rest depth ih =>
    exact skipTyping_local_cons (fun _ => by rw [skipTyping]) ih
  | case6 rest | case7 rest | case8 rest =>
    exact skipTyping_local_stop (fun _ => by rw [skipTyping]) rest
  | case9 depth t rest hbracket hparen hclose hclose' hcomma hassign hend ih =>
    refine skipTyping_local_cons (fun r => ?_) ih
    rw [skipTyping] <;> simp_all

lemma defaultValue_local (ts : List Token) : LocalEnding defaultValue ts := by
  intro d t w h
  obtain ⟨rfl, rfl, hfree⟩ | ⟨rest, e, rfl, rfl, he⟩ := defaultValue_inv h
  · exact ⟨[], rfl, fun w' => defaultValue_none (hfree.replace (u := []) w')⟩
  · obtain ⟨u, rfl, hu⟩ := expression_local rest e t w he
    exact ⟨.symbol .assign :: u, rfl, fun w' => defaultValue_some (hu w')⟩

lemma typing_local (ts : List Token) :
    Local (fun ts (_ : Unit) rest => (typing ts).1 = rest) ts := by
  intro a t w h
  by_cases hcolon : HeadFree (· = .symbol .colon) ts
  · obtain rfl := (typing_of_headFree hcolon).symm.trans h
    exact ⟨[], rfl, fun w' => typing_of_headFree (hcolon.replace (u := []) w')⟩
  · obtain ⟨rest, rfl⟩ := exists_of_not_headFree hcolon
    obtain ⟨u, rfl, hu⟩ := skipTyping_local 0 rest a t w h
    exact ⟨.symbol .colon :: u, rfl, hu⟩

/-- **A parameter is settled with the first token behind it.** -/
theorem param_local (ts : List Token) : LocalPhrase param ts := by
  intro p t w h
  obtain ⟨rest, rfl, hdefault⟩ := param_inv h
  obtain ⟨v, hv, hmore⟩ := defaultValue_local (typing rest).1 p.default t w hdefault
  obtain ⟨u, rfl, hu⟩ := (typing_local rest).before (a := ()) hv
  refine takes_append (u := .word p.name :: u) (fun w' => param_named ?_) w
  exact (hu w').symm ▸ hmore w'

end Dataflow.Script

import Dataflow.Proofs.Script.Grammar
import Dataflow.Script.Definition

/-!
# How the result of a reader came about

The rules of the readers turned around: each lemma says in which ways a reader of the grammar, or
of the header of a definition, can have come to what it gives.
-/

namespace Dataflow.Script

variable {α β : Type} {ts rest rest' rest'' : List Token} {t : Token} {l : Level} {e e' : Expr}

lemma exists_of_read_bind {p : List Token → Prop}
    {r : Except Mismatch (α × { r : List Token // p r })}
    {k : α × { r : List Token // p r } → Except Mismatch β} {b : β} (h : (r >>= k) = .ok b) :
    ∃ a rest, ∃ hp : p rest, r = .ok (a, ⟨rest, hp⟩) ∧ k (a, ⟨rest, hp⟩) = .ok b := by
  cases r with
  | error m => cases h
  | ok x => exact ⟨x.1, x.2.1, x.2.2, rfl, h⟩

lemma Phrase.Gives.unique {r : Phrase α ts} {a a' : α} (h : r.Gives a rest)
    (h' : r.Gives a' rest') : a = a' ∧ rest = rest' := by
  obtain ⟨hlt, h⟩ := h
  obtain ⟨hlt', h'⟩ := h'
  cases h.symm.trans h'
  exact ⟨rfl, rfl⟩

lemma headFree_of_ne {t : Token} (h : ∀ rest, ts = t :: rest → False) : HeadFree (· = t) ts := by
  cases ts with
  | nil => simp [HeadFree]
  | cons t' rest =>
    intro t'' ht'' heq
    obtain rfl : t' = t'' := by simpa using ht''
    exact h rest (by rw [heq])

lemma exists_of_not_headFree {t : Token} (h : ¬ HeadFree (· = t) ts) : ∃ rest, ts = t :: rest := by
  simp only [HeadFree, not_forall, not_not] at h
  obtain ⟨t', ht', rfl⟩ := h
  exact List.head?_eq_some_iff.1 ht'

lemma expect_inv {s : Symbol} {u : Unit} (h : (expect s ts).Gives u rest) :
    ts = .symbol s :: rest := by
  obtain ⟨hlt, h⟩ := h
  unfold expect at h
  split at h
  · split at h
    · rename_i heq
      obtain ⟨-, hrest⟩ := Prod.mk.inj (Except.ok.inj h)
      exact heq ▸ congrArg (Token.symbol _ :: ·) (congrArg Subtype.val hrest)
    · cases h
  · cases h
  · cases h

lemma headFree_of_expect {s : Symbol} {m : Mismatch} (h : expect s ts = .error m) :
    HeadFree (· = .symbol s) ts := by
  refine headFree_of_ne ?_
  rintro rest rfl
  obtain ⟨hlt, hexpect⟩ := expect_gives s rest
  rw [hexpect] at h
  cases h

lemma chain_inv (h : (chain l ts).Gives e' rest') :
    ∃ e rest, (operand l ts).Gives e rest ∧ (chainAfter l e rest).Gives e' rest' := by
  obtain ⟨hlt, h⟩ := h
  rw [chain] at h
  obtain ⟨e, rest, hrest, hoperand, h⟩ := exists_of_read_bind h
  obtain ⟨e₁, rest₁, hrest₁, hafter, h⟩ := exists_of_read_bind h
  cases h
  exact ⟨e, rest, ⟨hrest, hoperand⟩, ⟨hrest₁, hafter⟩⟩

lemma chainAfter_inv (h : (chainAfter l e ts).Gives e' rest') :
    e' = e ∧ rest' = ts ∧ HeadFree (fun t => (l.operator? t).isSome) ts ∨
      ∃ t rest build right rest₁, ts = t :: rest ∧ l.operator? t = some build ∧
        (operand l rest).Gives right rest₁ ∧
          (chainAfter l (build e right) rest₁).Gives e' rest' := by
  obtain ⟨hle, h⟩ := h
  cases ts with
  | nil =>
    rw [chainAfter] at h
    cases h
    exact .inl ⟨rfl, rfl, by simp [HeadFree]⟩
  | cons t rest =>
    rw [chainAfter] at h
    split at h
    · rename_i hnone
      cases h
      exact .inl ⟨rfl, rfl, by simp [HeadFree, hnone]⟩
    · rename_i build hbuild
      obtain ⟨right, rest₁, hrest₁, hright, h⟩ := exists_of_read_bind h
      obtain ⟨e₂, rest₂, hrest₂, hafter, h⟩ := exists_of_read_bind h
      cases h
      exact .inr ⟨t, rest, build, right, rest₁, rfl, hbuild, ⟨hrest₁, hright⟩, ⟨hrest₂, hafter⟩⟩

lemma negation_inv (h : (negation ts).Gives e rest') :
    (∃ rest e₁, ts = .word "not" :: rest ∧ e = .not e₁ ∧ (negation rest).Gives e₁ rest') ∨
      HeadFree (· = .word "not") ts ∧ (comparison ts).Gives e rest' := by
  obtain ⟨hlt, h⟩ := h
  unfold negation at h
  split at h
  · obtain ⟨e₁, rest₁, hrest₁, hmore, h⟩ := exists_of_read_bind h
    cases h
    exact .inl ⟨_, e₁, rfl, rfl, ⟨hrest₁, hmore⟩⟩
  · rename_i hnot
    exact .inr ⟨headFree_of_ne hnot, hlt, h⟩

lemma comparison_inv (h : (comparison ts).Gives e' rest') :
    ∃ e rest, (chain .sum ts).Gives e rest ∧
      (e' = e ∧ rest' = rest ∧ HeadFree (fun t => (comparison? t).isSome) rest ∨
        ∃ t after op right, rest = t :: after ∧ comparison? t = some op ∧
          e' = .compare op e right ∧ (chain .sum after).Gives right rest') := by
  obtain ⟨hlt, h⟩ := h
  rw [comparison] at h
  obtain ⟨e, rest, hrest, hsum, h⟩ := exists_of_read_bind h
  refine ⟨e, rest, ⟨hrest, hsum⟩, ?_⟩
  cases rest with
  | nil =>
    cases h
    exact .inl ⟨rfl, rfl, by simp [HeadFree]⟩
  | cons t after =>
    dsimp only at h
    split at h
    · rename_i hnone
      cases h
      exact .inl ⟨rfl, rfl, by simp [HeadFree, hnone]⟩
    · rename_i op hop
      obtain ⟨right, rest₁, hrest₁, hright, h⟩ := exists_of_read_bind h
      cases h
      exact .inr ⟨t, after, op, right, rfl, hop, rfl, ⟨hrest₁, hright⟩⟩

lemma signed_inv (h : (signed ts).Gives e rest') :
    (∃ rest e₁, ts = .symbol .minus :: rest ∧ e = .negate e₁ ∧ (signed rest).Gives e₁ rest') ∨
      (∃ rest, ts = .symbol .plus :: rest ∧ (signed rest).Gives e rest') ∨
        HeadFree (fun t => t = .symbol .minus ∨ t = .symbol .plus) ts ∧
          (power ts).Gives e rest' := by
  obtain ⟨hlt, h⟩ := h
  unfold signed at h
  split at h
  · obtain ⟨e₁, rest₁, hrest₁, hmore, h⟩ := exists_of_read_bind h
    cases h
    exact .inl ⟨_, e₁, rfl, rfl, ⟨hrest₁, hmore⟩⟩
  · obtain ⟨e₁, rest₁, hrest₁, hmore, h⟩ := exists_of_read_bind h
    cases h
    exact .inr (.inl ⟨_, rfl, ⟨hrest₁, hmore⟩⟩)
  · rename_i hminus hplus
    refine .inr (.inr ⟨fun t ht => ?_, hlt, h⟩)
    rintro (rfl | rfl)
    · exact headFree_of_ne hminus _ ht rfl
    · exact headFree_of_ne hplus _ ht rfl

lemma power_inv (h : (power ts).Gives e' rest') :
    ∃ e rest, (access ts).Gives e rest ∧
      (e' = e ∧ rest' = rest ∧ HeadFree (· = .symbol .power) rest ∨
        ∃ after exponent, rest = .symbol .power :: after ∧
          e' = .arithmetic .power e exponent ∧ (signed after).Gives exponent rest') := by
  obtain ⟨hlt, h⟩ := h
  rw [power] at h
  obtain ⟨e, rest, hrest, haccess, h⟩ := exists_of_read_bind h
  refine ⟨e, rest, ⟨hrest, haccess⟩, ?_⟩
  dsimp only at h
  split at h
  · obtain ⟨exponent, rest₁, hrest₁, hexponent, h⟩ := exists_of_read_bind h
    cases h
    exact .inr ⟨_, exponent, rfl, rfl, ⟨hrest₁, hexponent⟩⟩
  · rename_i hpower
    cases h
    exact .inl ⟨rfl, rfl, headFree_of_ne hpower⟩

lemma access_inv (h : (access ts).Gives e' rest') :
    ∃ e rest, (primary ts).Gives e rest ∧ (accessAfter e rest).Gives e' rest' := by
  obtain ⟨hlt, h⟩ := h
  rw [access] at h
  obtain ⟨e, rest, hrest, hprimary, h⟩ := exists_of_read_bind h
  obtain ⟨e₁, rest₁, hrest₁, hafter, h⟩ := exists_of_read_bind h
  cases h
  exact ⟨e, rest, ⟨hrest, hprimary⟩, ⟨hrest₁, hafter⟩⟩

lemma accessAfter_inv (h : (accessAfter e ts).Gives e' rest') :
    e' = e ∧ rest' = ts ∧
        HeadFree (fun t => t = .symbol .openBracket ∨ t = .symbol .openParen) ts ∨
      (∃ rest index rest₁, ts = .symbol .openBracket :: rest ∧
        (chain .disjunction rest).Gives index (.symbol .closeBracket :: rest₁) ∧
          (accessAfter (.index e index) rest₁).Gives e' rest') ∨
      ∃ rest name args rest₁, ts = .symbol .openParen :: rest ∧ e = .variable name ∧
        (items .closeParen rest).Gives args rest₁ ∧
          (accessAfter (.call name args) rest₁).Gives e' rest' := by
  obtain ⟨hle, h⟩ := h
  unfold accessAfter at h
  split at h
  · obtain ⟨index, rest₁, hrest₁, hindex, h⟩ := exists_of_read_bind h
    obtain ⟨_, rest₂, hrest₂, hclose, h⟩ := exists_of_read_bind h
    obtain ⟨e₃, rest₃, hrest₃, hafter, h⟩ := exists_of_read_bind h
    cases h
    obtain rfl := expect_inv ⟨hrest₂, hclose⟩
    exact .inr (.inl ⟨_, index, rest₂, rfl, ⟨hrest₁, hindex⟩, ⟨hrest₃, hafter⟩⟩)
  · split at h
    · obtain ⟨args, rest₁, hrest₁, hargs, h⟩ := exists_of_read_bind h
      obtain ⟨e₂, rest₂, hrest₂, hafter, h⟩ := exists_of_read_bind h
      cases h
      exact .inr (.inr ⟨_, _, args, rest₁, rfl, rfl, ⟨hrest₁, hargs⟩, ⟨hrest₂, hafter⟩⟩)
    · cases h
  · rename_i hbracket hparen
    cases h
    refine .inl ⟨rfl, rfl, fun t ht => ?_⟩
    rintro (rfl | rfl)
    · exact headFree_of_ne hbracket _ ht rfl
    · exact headFree_of_ne hparen _ ht rfl

lemma primary_paren_inv (h : (primary (.symbol .openParen :: ts)).Gives e rest) :
    (chain .disjunction ts).Gives e (.symbol .closeParen :: rest) := by
  obtain ⟨hlt, h⟩ := h
  rw [primary] at h
  obtain ⟨e₁, rest₁, hrest₁, hinner, h⟩ := exists_of_read_bind h
  obtain ⟨_, rest₂, hrest₂, hclose, h⟩ := exists_of_read_bind h
  cases h
  obtain rfl := expect_inv ⟨hrest₂, hclose⟩
  exact ⟨hrest₁, hinner⟩

lemma primary_list_inv (h : (primary (.symbol .openBracket :: ts)).Gives e rest) :
    ∃ l, e = .list l ∧ (items .closeBracket ts).Gives l rest := by
  obtain ⟨hlt, h⟩ := h
  rw [primary] at h
  obtain ⟨l, rest₁, hrest₁, hitems, h⟩ := exists_of_read_bind h
  cases h
  exact ⟨l, rfl, ⟨hrest₁, hitems⟩⟩

lemma primary_map_inv (h : (primary (.symbol .openBrace :: ts)).Gives e rest) :
    ∃ l, e = .map l ∧ (entries ts).Gives l rest := by
  obtain ⟨hlt, h⟩ := h
  rw [primary] at h
  obtain ⟨l, rest₁, hrest₁, hentries, h⟩ := exists_of_read_bind h
  cases h
  exact ⟨l, rfl, ⟨hrest₁, hentries⟩⟩

lemma items_inv {close : Symbol} {es : List Expr} (h : (items close ts).Gives es rest') :
    es = [] ∧ ts = .symbol close :: rest' ∨
      HeadFree (· = .symbol close) ts ∧ ∃ e rest, (chain .disjunction ts).Gives e rest ∧
        ((∃ after more, rest = .symbol .comma :: after ∧ es = e :: more ∧
            (items close after).Gives more rest') ∨
          rest = .symbol close :: rest' ∧ es = [e] ∧ close ≠ .comma) := by
  obtain ⟨hlt, h⟩ := h
  rw [items] at h
  split at h
  · rename_i rest hexpect
    cases h
    exact .inl ⟨rfl, expect_inv ⟨_, hexpect⟩⟩
  · rename_i m hexpect
    obtain ⟨e, rest, hrest, he, h⟩ := exists_of_read_bind h
    refine .inr ⟨headFree_of_expect hexpect, e, rest, ⟨hrest, he⟩, ?_⟩
    dsimp only at h
    split at h
    · obtain ⟨more, rest₁, hrest₁, hmore, h⟩ := exists_of_read_bind h
      cases h
      exact .inl ⟨_, more, rfl, rfl, ⟨hrest₁, hmore⟩⟩
    · rename_i hcomma
      obtain ⟨_, rest₁, hrest₁, hclose, h⟩ := exists_of_read_bind h
      cases h
      obtain rfl := expect_inv ⟨hrest₁, hclose⟩
      exact .inr ⟨rfl, rfl, by rintro rfl; exact hcomma _ rfl⟩

lemma entries_inv {es : List (Expr × Expr)} (h : (entries ts).Gives es rest') :
    es = [] ∧ ts = .symbol .closeBrace :: rest' ∨
      HeadFree (· = .symbol .closeBrace) ts ∧ ∃ key value rest₁ rest₂,
        (chain .disjunction ts).Gives key (.symbol .colon :: rest₁) ∧
        (chain .disjunction rest₁).Gives value rest₂ ∧
        ((∃ after more, rest₂ = .symbol .comma :: after ∧ es = (key, value) :: more ∧
            (entries after).Gives more rest') ∨
          rest₂ = .symbol .closeBrace :: rest' ∧ es = [(key, value)]) := by
  obtain ⟨hlt, h⟩ := h
  rw [entries] at h
  split at h
  · rename_i rest hexpect
    cases h
    exact .inl ⟨rfl, expect_inv ⟨_, hexpect⟩⟩
  · rename_i m hexpect
    obtain ⟨key, rest, hrest, hkey, h⟩ := exists_of_read_bind h
    obtain ⟨_, rest₁, hrest₁, hcolon, h⟩ := exists_of_read_bind h
    obtain rfl := expect_inv ⟨hrest₁, hcolon⟩
    obtain ⟨value, rest₂, hrest₂, hvalue, h⟩ := exists_of_read_bind h
    refine .inr ⟨headFree_of_expect hexpect, key, value, rest₁, rest₂, ⟨hrest, hkey⟩,
      ⟨hrest₂, hvalue⟩, ?_⟩
    dsimp only at h
    split at h
    · obtain ⟨more, rest₃, hrest₃, hmore, h⟩ := exists_of_read_bind h
      cases h
      exact .inl ⟨_, more, rfl, rfl, ⟨hrest₃, hmore⟩⟩
    · obtain ⟨_, rest₃, hrest₃, hclose, h⟩ := exists_of_read_bind h
      cases h
      obtain rfl := expect_inv ⟨hrest₃, hclose⟩
      exact .inr ⟨rfl, rfl⟩

/-! ## Headers -/

lemma identifier_inv {name : String} (h : (identifier ts).Gives name rest) :
    ts = .word name :: rest := by
  obtain ⟨hlt, h⟩ := h
  unfold identifier at h
  split at h
  · cases h
    rfl
  · cases h
  · cases h

lemma typing_of_headFree (h : HeadFree (· = .symbol .colon) ts) : (typing ts).1 = ts := by
  unfold typing
  split
  · exact absurd rfl (h _ rfl)
  · rfl

lemma defaultValue_inv {d : Option Expr} (h : (defaultValue ts).Gives d rest') :
    d = none ∧ rest' = ts ∧ HeadFree (· = .symbol .assign) ts ∨
      ∃ rest e, ts = .symbol .assign :: rest ∧ d = some e ∧ (expression rest).Gives e rest' := by
  obtain ⟨hle, h⟩ := h
  unfold defaultValue at h
  split at h
  · obtain ⟨e, rest₁, hrest₁, he, h⟩ := exists_of_read_bind h
    cases h
    exact .inr ⟨_, e, rfl, rfl, ⟨hrest₁, he⟩⟩
  · rename_i hassign
    cases h
    exact .inl ⟨rfl, rfl, headFree_of_ne hassign⟩

lemma param_inv {p : Param} (h : (param ts).Gives p rest') :
    ∃ rest, ts = .word p.name :: rest ∧ (defaultValue (typing rest).1).Gives p.default rest' := by
  obtain ⟨hlt, h⟩ := h
  rw [param] at h
  obtain ⟨name, rest, hrest, hname, h⟩ := exists_of_read_bind h
  obtain rfl := identifier_inv ⟨hrest, hname⟩
  obtain ⟨d, rest₁, hrest₁, hdefault, h⟩ := exists_of_read_bind h
  cases h
  exact ⟨rest, rfl, ⟨hrest₁, hdefault⟩⟩

lemma params_inv {l : List Param} (h : (params ts).Gives l rest') :
    l = [] ∧ ts = .symbol .closeParen :: rest' ∨
      HeadFree (· = .symbol .closeParen) ts ∧ ∃ p rest, (param ts).Gives p rest ∧
        ((∃ after more, rest = .symbol .comma :: after ∧ l = p :: more ∧
            (params after).Gives more rest') ∨
          rest = .symbol .closeParen :: rest' ∧ l = [p]) := by
  obtain ⟨hlt, h⟩ := h
  rw [params] at h
  split at h
  · rename_i rest hexpect
    cases h
    exact .inl ⟨rfl, expect_inv ⟨_, hexpect⟩⟩
  · rename_i m hexpect
    obtain ⟨p, rest, hrest, hp, h⟩ := exists_of_read_bind h
    refine .inr ⟨headFree_of_expect hexpect, p, rest, ⟨hrest, hp⟩, ?_⟩
    dsimp only at h
    split at h
    · obtain ⟨more, rest₁, hrest₁, hmore, h⟩ := exists_of_read_bind h
      cases h
      exact .inl ⟨_, more, rfl, rfl, ⟨hrest₁, hmore⟩⟩
    · obtain ⟨_, rest₁, hrest₁, hclose, h⟩ := exists_of_read_bind h
      cases h
      obtain rfl := expect_inv ⟨hrest₁, hclose⟩
      exact .inr ⟨rfl, rfl⟩

lemma resultTyping_inv (h : resultTyping ts = .ok rest') :
    rest' = ts ∧ HeadFree (· = .symbol .minus) ts ∨
      ∃ rest, ts = .symbol .minus :: .symbol .greater :: rest ∧
        rest' = rest.dropWhile (· ≠ .symbol .colon) := by
  unfold resultTyping at h
  split at h
  · obtain ⟨_, rest, hrest, hgreater, h⟩ := exists_of_read_bind h
    obtain rfl := expect_inv ⟨hrest, hgreater⟩
    cases h
    exact .inr ⟨rest, rfl, rfl⟩
  · rename_i hminus
    cases h
    exact .inl ⟨rfl, headFree_of_ne hminus⟩

lemma header_inv {f : FunctionDef} (h : header ts = .ok f) :
    ∃ name ts' l rest rest', ts = .word name :: .symbol .openParen :: ts' ∧
      (params ts').Gives l rest ∧ resultTyping rest = .ok (.symbol .colon :: rest') := by
  rw [header] at h
  obtain ⟨name, rest₁, hrest₁, hname, hopen⟩ := exists_of_read_bind h
  obtain ⟨_, rest₂, hrest₂, hparen, hread⟩ := exists_of_read_bind hopen
  obtain ⟨l, rest₃, hrest₃, hparams, hend⟩ := exists_of_read_bind hread
  cases hresult : resultTyping rest₃ with
  | error m =>
    simp only [hresult] at hend
    cases hend
  | ok rest₄ =>
    simp only [hresult] at hend
    obtain ⟨_, rest₅, hrest₅, hcolon, -⟩ := exists_of_read_bind hend
    obtain rfl := identifier_inv ⟨hrest₁, hname⟩
    obtain rfl := expect_inv ⟨hrest₂, hparen⟩
    obtain rfl := expect_inv ⟨hrest₅, hcolon⟩
    exact ⟨name, rest₂, l, rest₃, rest₅, rfl, ⟨hrest₃, hparams⟩, hresult⟩

/-- The statement behind the colon of a header, if there is one. -/
def inlineBody : List Token → Except Mismatch (List Statement)
  | [] => .ok []
  | ts => (statement ts).map ([·])

/-- What a header gives, from its parameters and the tokens behind its colon. -/
lemma header_eq {name : String} {l : List Param} (hparams : (params ts).Gives l rest)
    (hresult : resultTyping rest = .ok (.symbol .colon :: rest')) :
    header (.word name :: .symbol .openParen :: ts) =
      (inlineBody rest').map (FunctionDef.mk name l) := by
  obtain ⟨hlt, hparams⟩ := hparams
  rw [header]
  simp only [identifier, bind, Except.bind, afterFirst, expect, if_true, hparams, hresult]
  cases rest' with
  | nil => rfl
  | cons t ts =>
    dsimp only [inlineBody]
    cases statement (t :: ts) <;> rfl

end Dataflow.Script

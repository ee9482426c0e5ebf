import Dataflow.Proofs.Script.Grammar
import Dataflow.Proofs.Script.Rendering

/-!
# Reading the tokens of an expression

The reader of a level reads the tokens of an expression back, if what follows does not go on with
it (`Stops`).  For the levels that group to the left, and for indices and calls, what follows may
go on at the same level; there the expression becomes the left operand of what is read next
(`Chains`, `Reads`).  A reader of a level calls that of the next tighter one, so that tokens which
are read at one level are read at all looser ones (`Reads.loosen`).
-/

namespace Dataflow.Script

/-! ## Levels -/

namespace Level

/-- The level among all levels. -/
def precedence : Level → Precedence
  | disjunction => .disjunction
  | conjunction => .conjunction
  | sum => .sum
  | product => .product

/-- The level of the operands. -/
def tighter : Level → Precedence
  | disjunction => .conjunction
  | conjunction => .negation
  | sum => .product
  | product => .sign

end Level

namespace Precedence

variable {i j : Precedence}

lemma rank_inj (h : i.rank = j.rank) : i = j := by
  cases i <;> cases j <;> first | rfl | simp [rank] at h

lemma exists_looser (h : 0 < j.rank) : ∃ i : Precedence, j.rank = i.rank + 1 := by
  cases j with
  | disjunction => simp [rank] at h
  | conjunction => exact ⟨.disjunction, rfl⟩
  | negation => exact ⟨.conjunction, rfl⟩
  | comparison => exact ⟨.negation, rfl⟩
  | sum => exact ⟨.comparison, rfl⟩
  | product => exact ⟨.sum, rfl⟩
  | sign => exact ⟨.product, rfl⟩
  | power => exact ⟨.sign, rfl⟩
  | access => exact ⟨.power, rfl⟩

end Precedence

/-! ## What comes first -/

/-- The tokens with which an expression of a level starts. -/
inductive Token.Starts (l : Precedence) : Token → Prop where
  | int (n : Int64) : Starts l (.int n)
  | text (s : String) : Starts l (.text s)
  | word {name : String} (hnot : name ≠ "not") (hreturn : name ≠ "return") : Starts l (.word name)
  | not (h : l.rank ≤ Precedence.negation.rank) : Starts l (.word "not")
  | minus (h : l.rank ≤ Precedence.sign.rank) : Starts l (.symbol .minus)
  | openParen : Starts l (.symbol .openParen)
  | openBracket : Starts l (.symbol .openBracket)
  | openBrace : Starts l (.symbol .openBrace)

/-- The first token is one with which an expression of a level starts. -/
def Begins (l : Precedence) (ts : List Token) : Prop := ∃ t rest, ts = t :: rest ∧ t.Starts l

section Begins

variable {i j l : Precedence} {ts rest : List Token} {e : Expr}

lemma Begins.mono (h : Begins j ts) (hij : i.rank ≤ j.rank) : Begins i ts := by
  obtain ⟨t, rest, rfl, ht⟩ := h
  refine ⟨t, rest, rfl, ?_⟩
  cases ht with
  | int n => exact .int n
  | text s => exact .text s
  | word hnot hreturn => exact .word hnot hreturn
  | not h => exact .not (Nat.le_trans hij h)
  | minus h => exact .minus (Nat.le_trans hij h)
  | openParen => exact .openParen
  | openBracket => exact .openBracket
  | openBrace => exact .openBrace

lemma Begins.append (h : Begins l ts) (rest : List Token) : Begins l (ts ++ rest) := by
  obtain ⟨t, rest', rfl, ht⟩ := h
  exact ⟨t, rest' ++ rest, rfl, ht⟩

lemma Begins.headFree {p : Token → Prop} (h : Begins l ts) (hp : ∀ t, t.Starts l → ¬ p t) :
    HeadFree p ts := by
  obtain ⟨t, rest, rfl, ht⟩ := h
  intro t' ht'
  obtain rfl : t = t' := by simpa using ht'
  exact hp t ht

lemma Begins.within (h : Begins e.precedence ts) (l : Precedence) : Begins l (e.within l ts) := by
  rw [Expr.within]
  split
  · exact ⟨_, _, rfl, .openParen⟩
  · exact h.mono (by omega)

lemma IsName.starts {name : String} (h : IsName name) (l : Precedence) :
    (Token.word name).Starts l := by
  refine .word ?_ ?_
  · rintro rfl
    exact h.2 (by decide)
  · rintro rfl
    exact h.2 (by decide)

lemma begins_literal {v : Value} (h : IsLiteral v) : Begins .access (literalTokens v) := by
  cases v with
  | null => exact ⟨_, _, rfl, .word (by decide) (by decide)⟩
  | bool b => cases b <;> exact ⟨_, _, rfl, .word (by decide) (by decide)⟩
  | int n => exact ⟨_, _, rfl, .int n⟩
  | text s => exact ⟨_, _, rfl, .text s⟩
  | float _ => exact h.elim
  | list _ => exact h.elim
  | map _ => exact h.elim

/-- The tokens of an expression start like one of its level. -/
lemma begins_tokens : ∀ e : Expr, e.Writable → Begins e.precedence e.tokens
  | .or left _, h => by
    rw [Expr.tokens]
    exact ((begins_tokens left h.1).within _).append _
  | .and left _, h => by
    rw [Expr.tokens]
    exact ((begins_tokens left h.1).within _).append _
  | .not _, _ => ⟨_, _, by rw [Expr.tokens], .not (Nat.le_refl _)⟩
  | .compare _ left _, h => by
    rw [Expr.tokens]
    exact (((begins_tokens left h.1).within .sum).append _).mono (Nat.le_succ 3)
  | .arithmetic op left _, h => by
    rw [Expr.tokens]
    refine (((begins_tokens left h.1).within op.left).append _).mono ?_
    rw [Expr.precedence]
    cases op <;> decide
  | .negate _, _ => ⟨_, _, by rw [Expr.tokens], .minus (Nat.le_refl _)⟩
  | .call name _, h => ⟨_, _, by rw [Expr.tokens], h.1.starts _⟩
  | .index target _, h => by
    rw [Expr.tokens]
    exact ((begins_tokens target h.1).within _).append _
  | .list _, _ => ⟨_, _, by rw [Expr.tokens], .openBracket⟩
  | .map _, _ => ⟨_, _, by rw [Expr.tokens], .openBrace⟩
  | .literal _, h => by
    rw [Expr.tokens]
    exact begins_literal h
  | .variable name, h => ⟨_, _, by rw [Expr.tokens], IsName.starts h _⟩

end Begins

/-! ## What comes next -/

/-- The level of a sign that stands between its operands or behind the first of them. -/
def Symbol.binds? : Symbol → Option Precedence
  | equal | notEqual | less | lessEqual | greater | greaterEqual => some .comparison
  | plus | minus => some .sum
  | times | divide | floorDivide | modulo => some .product
  | power => some .power
  | openBracket | openParen => some .access
  | _ => none

/-- The level at which a token goes on with the expression before it. -/
def Token.binds? : Token → Option Precedence
  | .word "or" => some .disjunction
  | .word "and" => some .conjunction
  | .symbol s => s.binds?
  | _ => none

/-- What follows does not go on with an expression of a level. -/
def Stops (l : Precedence) (ts : List Token) : Prop :=
  ∀ t ∈ ts.head?, ∀ b, t.binds? = some b → b.rank < l.rank

section Stops

variable {i j l : Precedence} {ts rest : List Token} {t : Token}

lemma stops_cons (h : ∀ b, t.binds? = some b → b.rank < l.rank) : Stops l (t :: rest) := by
  intro t' ht'
  obtain rfl : t = t' := by simpa using ht'
  exact h

lemma stops_of_binds?_eq_none (h : t.binds? = none) : Stops l (t :: rest) :=
  stops_cons fun b hb => by simp [h] at hb

lemma Stops.mono (h : Stops i ts) (hij : i.rank ≤ j.rank) : Stops j ts :=
  fun t ht b hb => Nat.lt_of_lt_of_le (h t ht b hb) hij

lemma Stops.headFree {p : Token → Prop} (h : Stops l ts)
    (hp : ∀ t, p t → ∃ b, t.binds? = some b ∧ l.rank ≤ b.rank) : HeadFree p ts := by
  intro t ht hpt
  obtain ⟨b, hb, hle⟩ := hp t hpt
  exact absurd (h t ht b hb) (by omega)

lemma binds?_of_operator? {l : Level} (h : (l.operator? t).isSome = true) :
    t.binds? = some l.precedence := by
  unfold Level.operator? at h
  split at h <;> first | rfl | simp at h

lemma binds?_of_comparison? (h : (comparison? t).isSome = true) :
    t.binds? = some .comparison := by
  unfold comparison? at h
  split at h <;> first | rfl | simp at h

lemma Stops.operatorFree {l : Level} (h : Stops l.precedence ts) :
    HeadFree (fun t => (l.operator? t).isSome = true) ts :=
  h.headFree fun _ ht => ⟨_, binds?_of_operator? ht, Nat.le_refl _⟩

/-- No sign has the level of the prefixes. -/
lemma Stops.sign (h : Stops .power ts) : Stops .sign ts := by
  intro t ht b hb
  have hlt := h t ht b hb
  have hne : b ≠ .sign := by
    rintro rfl
    unfold Token.binds? at hb
    split at hb
    · simp at hb
    · simp at hb
    · rename_i s
      cases s <;> simp [Symbol.binds?] at hb
    · simp at hb
  have hrank : b.rank ≠ Precedence.sign.rank := fun heq => hne (Precedence.rank_inj heq)
  simp only [Precedence.rank] at hlt hrank ⊢
  omega

end Stops

/-! ## Readers -/

/-- At a level that groups to the left, the tokens give an expression that may become the left
operand of what follows. -/
def Chains (l : Level) (ts : List Token) (e : Expr) : Prop :=
  ∀ rest e' rest', Stops l.tighter rest → (chainAfter l e rest).Gives e' rest' →
    (chain l (ts ++ rest)).Gives e' rest'

/-- The reader of a level gives an expression for its tokens. -/
def Reads (l : Precedence) (ts : List Token) (e : Expr) : Prop :=
  match l with
  | .disjunction => Chains .disjunction ts e
  | .conjunction => Chains .conjunction ts e
  | .negation => ∀ rest, Stops .negation rest → (negation (ts ++ rest)).Gives e rest
  | .comparison => ∀ rest, Stops .comparison rest → (comparison (ts ++ rest)).Gives e rest
  | .sum => Chains .sum ts e
  | .product => Chains .product ts e
  | .sign => ∀ rest, Stops .sign rest → (signed (ts ++ rest)).Gives e rest
  | .power => ∀ rest, Stops .power rest → (power (ts ++ rest)).Gives e rest
  | .access => ∀ rest e' rest', (accessAfter e rest).Gives e' rest' →
    (access (ts ++ rest)).Gives e' rest'

section Reads

variable {i j : Precedence} {l : Level} {ts ts' rest : List Token} {e left right : Expr}
  {t : Token}

lemma Level.precedence_lt_tighter (l : Level) : l.precedence.rank < l.tighter.rank := by
  cases l <;> decide

lemma Chains.gives (h : Chains l ts e) (hrest : Stops l.precedence rest) :
    (chain l (ts ++ rest)).Gives e rest :=
  h rest e rest (hrest.mono (Nat.le_of_lt l.precedence_lt_tighter))
    (chainAfter_stop hrest.operatorFree)

lemma Reads.operand_gives (h : Reads l.tighter ts e) (hrest : Stops l.tighter rest) :
    (operand l (ts ++ rest)).Gives e rest := by
  cases l with
  | disjunction =>
    rw [operand_disjunction]
    exact Chains.gives (l := .conjunction) h hrest
  | conjunction =>
    rw [operand_conjunction]
    exact h rest hrest
  | sum =>
    rw [operand_sum]
    exact Chains.gives (l := .product) h hrest
  | product =>
    rw [operand_product]
    exact h rest hrest

/-! ### From a level to the next looser one -/

lemma Reads.chains (h : Reads l.tighter ts e) : Chains l ts e :=
  fun _ _ _ hrest hafter => chain_gives (h.operand_gives hrest) hafter

lemma Reads.power (h : Reads .access ts e) : Reads .power ts e := by
  intro rest hrest
  refine power_single (h rest e rest (accessAfter_stop ?_)) ?_
  · refine hrest.headFree ?_
    rintro t (rfl | rfl) <;> exact ⟨_, rfl, by decide⟩
  · refine hrest.headFree ?_
    rintro t rfl
    exact ⟨_, rfl, by decide⟩

lemma Reads.sign (h : Reads .power ts e) (hts : Begins .power ts) : Reads .sign ts e := by
  intro rest hrest
  refine signed_other ((hts.append rest).headFree ?_) (h rest (hrest.mono (by decide)))
  rintro t ht (rfl | rfl)
  · cases ht with
    | minus hrank => simp [Precedence.rank] at hrank
  · cases ht

lemma Reads.comparison (h : Reads .sum ts e) : Reads .comparison ts e := by
  intro rest hrest
  refine comparison_single (Chains.gives (l := .sum) h (hrest.mono (by decide))) ?_
  exact hrest.headFree fun t ht => ⟨_, binds?_of_comparison? ht, Nat.le_refl _⟩

lemma Reads.negation (h : Reads .comparison ts e) (hts : Begins .comparison ts) :
    Reads .negation ts e := by
  intro rest hrest
  refine negation_other ((hts.append rest).headFree ?_) (h rest (hrest.mono (by decide)))
  rintro t ht rfl
  cases ht with
  | word hnot => exact hnot rfl
  | not hrank => simp [Precedence.rank] at hrank

lemma Reads.step (hij : j.rank = i.rank + 1) (hts : Begins j ts) (h : Reads j ts e) :
    Reads i ts e := by
  cases i with
  | disjunction =>
    obtain rfl : j = .conjunction := Precedence.rank_inj hij
    exact Reads.chains (l := .disjunction) h
  | conjunction =>
    obtain rfl : j = .negation := Precedence.rank_inj hij
    exact Reads.chains (l := .conjunction) h
  | negation =>
    obtain rfl : j = .comparison := Precedence.rank_inj hij
    exact h.negation hts
  | comparison =>
    obtain rfl : j = .sum := Precedence.rank_inj hij
    exact h.comparison
  | sum =>
    obtain rfl : j = .product := Precedence.rank_inj hij
    exact Reads.chains (l := .sum) h
  | product =>
    obtain rfl : j = .sign := Precedence.rank_inj hij
    exact Reads.chains (l := .product) h
  | sign =>
    obtain rfl : j = .power := Precedence.rank_inj hij
    exact h.sign hts
  | power =>
    obtain rfl : j = .access := Precedence.rank_inj hij
    exact h.power
  | access => cases j <;> simp [Precedence.rank] at hij

/-- What is read at a level is read at all looser ones. -/
lemma Reads.loosen (h : Reads j ts e) (hts : Begins j ts) (hij : i.rank ≤ j.rank) :
    Reads i ts e := by
  -- by induction on the number of levels between the two
  obtain ⟨d, hd⟩ : ∃ d, j.rank = i.rank + d := ⟨j.rank - i.rank, by omega⟩
  induction d generalizing j with
  | zero =>
    obtain rfl : j = i := Precedence.rank_inj hd
    exact h
  | succ d ih =>
    obtain ⟨k, hk⟩ := Precedence.exists_looser (j := j) (by omega)
    exact ih (h.step hk hts) (hts.mono (by omega)) (by omega) (by omega)

/-! ### Operands in their places -/

/-- In front of a sign that ends it, an expression needs no parentheses. -/
lemma Reads.gives_before (h : Reads e.precedence ts e) (hts : Begins e.precedence ts)
    {s : Symbol} (hs : s.binds? = none) (rest : List Token) :
    (chain .disjunction (ts ++ .symbol s :: rest)).Gives e (.symbol s :: rest) := by
  have hloose : Reads .disjunction ts e := h.loosen hts (Nat.zero_le _)
  exact Chains.gives (l := .disjunction) hloose (stops_of_binds?_eq_none hs)

/-- The tokens of an expression in a place for a level are read at that level. -/
lemma Reads.within (h : Reads e.precedence ts e) (hts : Begins e.precedence ts)
    (l : Precedence) : Reads l (e.within l ts) e := by
  rw [Expr.within]
  split
  · -- between parentheses the expression is read at the loosest level
    have haccess : Reads .access (.symbol .openParen :: ts ++ [.symbol .closeParen]) e := by
      intro rest e' rest' hafter
      have hinner := h.gives_before hts (s := .closeParen) rfl rest
      rw [List.append_assoc, List.cons_append]
      exact access_gives (primary_paren hinner) hafter
    refine haccess.loosen ⟨_, _, rfl, .openParen⟩ ?_
    cases l <;> decide
  · exact h.loosen hts (by omega)

/-- An operator that groups to the left, between its operands. -/
lemma Chains.binary {build : Expr → Expr → Expr} (ht : l.operator? t = some build)
    (hleft : Chains l ts left) (hright : Reads l.tighter ts' right) :
    Chains l (ts ++ t :: ts') (build left right) := by
  intro rest e' rest' hrest hafter
  have hstops : Stops l.tighter (t :: (ts' ++ rest)) := by
    refine stops_cons fun b hb => ?_
    rw [binds?_of_operator? (by rw [ht]; rfl), Option.some.injEq] at hb
    rw [← hb]
    exact l.precedence_lt_tighter
  have hchain := chainAfter_step ht (hright.operand_gives hrest) hafter
  rw [List.append_assoc, List.cons_append]
  exact hleft _ e' rest' hstops hchain

lemma reads_arithmetic (op : Arithmetic) (hleft : Reads op.left ts left)
    (hright : Reads op.right ts' right) :
    Reads op.precedence (ts ++ .symbol op.symbol :: ts') (.arithmetic op left right) := by
  cases op with
  | add => exact Chains.binary (l := .sum) rfl hleft hright
  | subtract => exact Chains.binary (l := .sum) rfl hleft hright
  | multiply => exact Chains.binary (l := .product) rfl hleft hright
  | divide => exact Chains.binary (l := .product) rfl hleft hright
  | floorDivide => exact Chains.binary (l := .product) rfl hleft hright
  | modulo => exact Chains.binary (l := .product) rfl hleft hright
  | power =>
    intro rest hrest
    rw [List.append_assoc, List.cons_append]
    refine power_pair (hleft _ left _ (accessAfter_stop ?_)) (hright rest hrest.sign)
    rintro t ht
    obtain rfl : Token.symbol .power = t := by simpa [Arithmetic.symbol] using ht
    simp

lemma reads_compare (op : Comparison) (hleft : Reads .sum ts left) (hright : Reads .sum ts' right) :
    Reads .comparison (ts ++ .symbol op.symbol :: ts') (.compare op left right) := by
  intro rest hrest
  rw [List.append_assoc, List.cons_append]
  have hsign : (Token.symbol op.symbol).binds? = some .comparison := by cases op <;> rfl
  refine comparison_pair (Chains.gives (l := .sum) hleft (stops_cons fun b hb => ?_)) ?_
    (Chains.gives (l := .sum) hright (hrest.mono (by decide)))
  · obtain rfl : Precedence.comparison = b := Option.some.inj (hsign.symm.trans hb)
    decide
  · cases op <;> rfl

lemma reads_literal {v : Value} (h : IsLiteral v) :
    Reads .access (literalTokens v) (.literal v) := by
  intro rest e' rest' hafter
  cases v with
  | null => exact access_gives (primary_word "None") hafter
  | bool b =>
    cases b with
    | false => exact access_gives (primary_word "False") hafter
    | true => exact access_gives (primary_word "True") hafter
  | int n => exact access_gives (primary_int n) hafter
  | text s => exact access_gives (primary_text s) hafter
  | float _ => exact h.elim
  | list _ => exact h.elim
  | map _ => exact h.elim

lemma IsName.ofName_eq {name : String} (h : IsName name) : ofName name = .variable name := by
  unfold ofName
  split
  · exact absurd (by decide) h.2
  · exact absurd (by decide) h.2
  · exact absurd (by decide) h.2
  · rfl

lemma IsName.primary_gives {name : String} (h : IsName name) :
    (primary (.word name :: rest)).Gives (.variable name) rest := by
  rw [← h.ofName_eq]
  exact primary_word name

lemma Begins.closeFree {l : Precedence} {s : Symbol} (h : Begins l ts)
    (hs : s = .closeParen ∨ s = .closeBracket ∨ s = .closeBrace) (rest : List Token) :
    HeadFree (· = .symbol s) (ts ++ rest) := by
  refine (h.append rest).headFree ?_
  rintro t ht rfl
  rcases hs with rfl | rfl | rfl <;> cases ht

end Reads

/-! ## Expressions -/

mutual

/-- **The tokens of an expression are read back at its level.** -/
theorem reads_tokens : ∀ e : Expr, e.Writable → Reads e.precedence e.tokens e
  | .or left right, h => by
    have hleft := (reads_tokens left h.1).within (begins_tokens left h.1) .disjunction
    have hright := (reads_tokens right h.2).within (begins_tokens right h.2) .conjunction
    rw [Expr.tokens]
    exact Chains.binary (l := .disjunction) rfl hleft hright
  | .and left right, h => by
    have hleft := (reads_tokens left h.1).within (begins_tokens left h.1) .conjunction
    have hright := (reads_tokens right h.2).within (begins_tokens right h.2) .negation
    rw [Expr.tokens]
    exact Chains.binary (l := .conjunction) rfl hleft hright
  | .not e, h => by
    have hinner := (reads_tokens e h).within (begins_tokens e h) .negation
    rw [Expr.tokens]
    exact fun rest hrest => negation_not (hinner rest hrest)
  | .compare op left right, h => by
    have hleft := (reads_tokens left h.1).within (begins_tokens left h.1) .sum
    have hright := (reads_tokens right h.2).within (begins_tokens right h.2) .sum
    rw [Expr.tokens]
    exact reads_compare op hleft hright
  | .arithmetic op left right, h => by
    have hleft := (reads_tokens left h.1).within (begins_tokens left h.1) op.left
    have hright := (reads_tokens right h.2).within (begins_tokens right h.2) op.right
    rw [Expr.tokens]
    exact reads_arithmetic op hleft hright
  | .negate e, h => by
    have hinner := (reads_tokens e h).within (begins_tokens e h) .sign
    rw [Expr.tokens]
    exact fun rest hrest => signed_minus (hinner rest hrest)
  | .call name args, h => by
    intro rest e' rest' hafter
    have hargs := items_give args h.2 .closeParen (.inl rfl) rest
    rw [Expr.tokens, List.cons_append, List.cons_append, List.append_assoc]
    exact access_gives h.1.primary_gives (accessAfter_call hargs hafter)
  | .index target index, h => by
    intro rest e' rest' hafter
    have htarget := (reads_tokens target h.1).within (begins_tokens target h.1) .access
    have hindex := (reads_tokens index h.2).gives_before (begins_tokens index h.2)
      (s := .closeBracket) rfl rest
    rw [Expr.tokens, List.append_assoc, List.cons_append, List.append_assoc]
    exact htarget _ e' rest' (accessAfter_index hindex hafter)
  | .list items, h => by
    intro rest e' rest' hafter
    have hitems := items_give items h .closeBracket (.inr rfl) rest
    rw [Expr.tokens, List.cons_append, List.append_assoc]
    exact access_gives (primary_list hitems) hafter
  | .map entries, h => by
    intro rest e' rest' hafter
    have hentries := entries_give entries h rest
    rw [Expr.tokens, List.cons_append, List.append_assoc]
    exact access_gives (primary_map hentries) hafter
  | .literal v, h => by
    rw [Expr.tokens]
    exact reads_literal h
  | .variable name, h => by
    intro rest e' rest' hafter
    rw [Expr.tokens]
    exact access_gives (IsName.primary_gives h) hafter

/-- Items are read back up to the closing sign. -/
theorem items_give : ∀ l : List Expr, ItemsWritable l → ∀ close : Symbol,
    close = .closeParen ∨ close = .closeBracket → ∀ rest : List Token,
      (items close (itemTokens l ++ .symbol close :: rest)).Gives l rest
  | [], _, close, _, rest => by
    rw [itemTokens]
    exact items_nil close rest
  | [e], h, close, hclose, rest => by
    have hends : close.binds? = none := by rcases hclose with rfl | rfl <;> rfl
    rw [itemTokens]
    refine items_last ((begins_tokens e h.1).closeFree ?_ _)
      ((reads_tokens e h.1).gives_before (begins_tokens e h.1) hends rest) ?_
    · tauto
    · rcases hclose with rfl | rfl <;> decide
  | e :: e' :: l, h, close, hclose, rest => by
    have hmore := items_give (e' :: l) h.2 close hclose rest
    rw [itemTokens, List.append_assoc, List.cons_append]
    refine items_more ((begins_tokens e h.1).closeFree ?_ _)
      ((reads_tokens e h.1).gives_before (begins_tokens e h.1) rfl _) hmore
    tauto

/-- Keys and values are read back up to the closing brace. -/
theorem entries_give : ∀ l : List (Expr × Expr), EntriesWritable l → ∀ rest : List Token,
    (entries (entryTokens l ++ .symbol .closeBrace :: rest)).Gives l rest
  | [], _, rest => by
    rw [entryTokens]
    exact entries_nil rest
  | [(key, value)], h, rest => by
    rw [entryTokens, List.append_assoc, List.cons_append]
    exact entries_last ((begins_tokens key h.1).closeFree (.inr (.inr rfl)) _)
      ((reads_tokens key h.1).gives_before (begins_tokens key h.1) rfl _)
      ((reads_tokens value h.2.1).gives_before (begins_tokens value h.2.1) rfl rest)
  | (key, value) :: entry :: l, h, rest => by
    have hmore := entries_give (entry :: l) h.2.2 rest
    rw [entryTokens, List.append_assoc, List.cons_append, List.append_assoc, List.cons_append]
    exact entries_more ((begins_tokens key h.1).closeFree (.inr (.inr rfl)) _)
      ((reads_tokens key h.1).gives_before (begins_tokens key h.1) rfl _)
      ((reads_tokens value h.2.1).gives_before (begins_tokens value h.2.1) rfl _) hmore

end

end Dataflow.Script

import Dataflow.Program.Literal
import Dataflow.Proofs.Script.RoundTrip
import Dataflow.Proofs.Value.Json
import Dataflow.Proofs.Value.Parts

/-!
# The tokens of a literal

Programs write values as literals, and the scanner of the script language reads them by rules of
its own.  What the front of a line gives, whatever comes behind it, is said by `Cut` and `Jams`.
The literal of a value without doubles is cut into the tokens of an expression (`cut_literal`),
unless the least integer is in it: its digits are too great without their sign, and so no line
with it has tokens (`jams_literal`).  In a text, a character without an escape of its own is
written by its code, and what the scanner makes of that is `reread`.
-/

namespace Dataflow

namespace Script

open Program

/-! ## Parts of a line -/

/-- The characters at the front of a line give tokens, whatever the rest of the line gives. -/
def Cut (w : List Char) (ts : List Token) (cs : List Char) : Prop :=
  ∀ line, tokensOf line (w ++ cs) = (tokensOf line cs).map (ts ++ ·)

/-- The characters at the front of a line give no tokens, whatever the rest of the line is. -/
def Jams (w cs : List Char) : Prop := ∀ line, ∃ e, tokensOf line (w ++ cs) = .error e

section Cut

variable {w w' cs : List Char} {ts ts' : List Token} {t : Token} {c : Char}

lemma Cut.nil (cs : List Char) : Cut [] [] cs := by
  intro line
  rw [List.nil_append]
  cases tokensOf line cs <;> rfl

lemma Cut.append (h : Cut w ts (w' ++ cs)) (h' : Cut w' ts' cs) : Cut (w ++ w') (ts ++ ts') cs := by
  intro line
  rw [List.append_assoc, h, h']
  cases tokensOf line cs with
  | error e => rfl
  | ok rest => simp [Except.map]

lemma Cut.of_scans (h : Scans t w cs) : Cut w [t] cs := by
  intro line
  obtain ⟨c, w, rfl, hblank, hcomment, hscan⟩ := h
  obtain ⟨hlt, hscan⟩ := hscan line
  rw [List.cons_append, tokensOf, if_neg (by simp [hblank]), if_neg hcomment, hscan]
  simp only [bind, Except.bind]
  cases tokensOf line cs <;> rfl

lemma Cut.of_spelled (h : t.Spelled w) (hends : t.EndsBefore cs) : Cut w [t] cs :=
  .of_scans (h.scans hends)

lemma Cut.blank (hc : Text.isBlank c = true) (cs : List Char) : Cut [c] [] cs := by
  intro line
  rw [List.singleton_append, tokensOf, if_pos hc]
  cases tokensOf line cs <;> rfl

lemma Jams.append (h : Jams w (w' ++ cs)) : Jams (w ++ w') cs := by
  intro line
  rw [List.append_assoc]
  exact h line

lemma Cut.jams (h : Cut w ts (w' ++ cs)) (h' : Jams w' cs) : Jams (w ++ w') cs := by
  intro line
  obtain ⟨e, he⟩ := h' line
  exact ⟨e, by rw [List.append_assoc, h, he]; rfl⟩

end Cut

/-- The signs that may come behind a literal. -/
def closers : List Char := [',', ':', ']', '\x7d']

/-- What comes behind a literal: nothing, or one of the signs for it. -/
def Closes (cs : List Char) : Prop := ∀ c ∈ cs.head?, c ∈ closers

lemma mem_closers {c : Char} : c ∈ closers ↔ c = ',' ∨ c = ':' ∨ c = ']' ∨ c = '\x7d' := by
  simp [closers]

lemma Closes.int {cs : List Char} (h : Closes cs) (n : Int64) : (Token.int n).EndsBefore cs := by
  intro c hc
  rcases mem_closers.1 (h c hc) with rfl | rfl | rfl | rfl <;>
    exact ⟨by decide, by decide, by decide, by decide⟩

lemma Closes.word {cs : List Char} (h : Closes cs) (name : String) :
    (Token.word name).EndsBefore cs := by
  intro c hc
  show isWordChar c = false
  rcases mem_closers.1 (h c hc) with rfl | rfl | rfl | rfl <;> decide +kernel

/-- A sign that is no part of a longer one ends before whatever comes. -/
lemma endsBefore_symbol {s : Symbol} {c : Char} (hs : s.text.toList = [c])
    (hc : c ∈ ['-', '(', ')', '[', ']', '\x7b', '\x7d', ',', ':']) (cs : List Char) :
    (Token.symbol s).EndsBefore cs := by
  intro d _ c' hc'
  obtain rfl : c = c' := by simpa [hs] using hc'
  simp only [List.mem_cons, List.not_mem_nil, or_false] at hc
  rcases hc with rfl | rfl | rfl | rfl | rfl | rfl | rfl | rfl | rfl <;> simp [Symbol.ofTwo?]

lemma Cut.symbol {s : Symbol} {c : Char} (hs : s.text.toList = [c])
    (hc : c ∈ ['-', '(', ')', '[', ']', '\x7b', '\x7d', ',', ':']) (cs : List Char) :
    Cut [c] [.symbol s] cs :=
  .of_spelled (hs ▸ .symbol s) (endsBefore_symbol hs hc cs)

/-! ## Texts -/

/-- Whether a character is a control character of ASCII that has no escape of its own. -/
def isUnnamed (c : Char) : Bool :=
  (c.toNat < 32 && c != '\n' && c != '\r' && c != '\t') || c.toNat == 127

/-- What is read for a character in a literal.  The language has no escapes by codes, so that an
`x` and the digits of the code are left of one. -/
def reread (c : Char) : List Char :=
  if isUnnamed c then ['x', Nat.digitChar (c.toNat / 16), Nat.digitChar (c.toNat % 16)] else [c]

/-- The text that is read for the literal of a text. -/
def rereadText (s : String) : String := String.ofList (s.toList.flatMap reread)

section Text

variable {quote : Char} {s body : List Char}

lemma digitChar_plain : ∀ n < 16, Nat.digitChar n ≠ '"' ∧ Nat.digitChar n ≠ '\'' ∧
    Nat.digitChar n ≠ '\\' ∧ isUnnamed (Nat.digitChar n) = false := by decide

lemma quoted_escapeChar (hquote : quote = '"' ∨ quote = '\'') (c : Char) (h : Quoted quote s body) :
    Quoted quote (reread c ++ s) (escapeChar quote c ++ body) := by
  unfold escapeChar
  split
  · exact .escaped '\\' h
  · exact .escaped 'n' h
  · exact .escaped 'r' h
  · exact .escaped 't' h
  · rename_i hslash hline hreturn htab
    split_ifs with hc hcode
    · subst hc
      rcases hquote with rfl | rfl
      · exact .escaped '"' h
      · exact .escaped '\'' h
    · have hunnamed : isUnnamed c = true := by
        have hnamed : c ≠ '\n' ∧ c ≠ '\r' ∧ c ≠ '\t' := ⟨hline, hreturn, htab⟩
        simpa [isUnnamed, hnamed] using hcode
      have hlt : c.toNat < 128 := by
        simp only [Bool.or_eq_true, decide_eq_true_eq] at hcode
        omega
      have hplain : ∀ n < 16, Nat.digitChar n ≠ quote ∧ Nat.digitChar n ≠ '\\' := by
        intro n hn
        obtain ⟨hdouble, hsingle, hback, -⟩ := digitChar_plain n hn
        rcases hquote with rfl | rfl
        · exact ⟨hdouble, hback⟩
        · exact ⟨hsingle, hback⟩
      obtain ⟨hhigh, hhigh'⟩ := hplain (c.toNat / 16) (by omega)
      obtain ⟨hlow, hlow'⟩ := hplain (c.toNat % 16) (by omega)
      rw [reread, if_pos hunnamed]
      exact .escaped 'x' (.plain hhigh hhigh' (.plain hlow hlow' h))
    · have hnamed : isUnnamed c = false := by
        simp only [Bool.or_eq_true, decide_eq_true_eq, not_or] at hcode
        simp [isUnnamed, hcode]
      rw [reread, if_neg (by simp [hnamed])]
      exact .plain hc (by simpa using hslash) h

lemma quoteFor_eq (cs : List Char) : quoteFor cs = '"' ∨ quoteFor cs = '\'' := by
  unfold quoteFor
  split <;> simp

/-- The literal of a text spells the text that is read for it. -/
lemma spelled_textChars (s : String) : (Token.text (rereadText s)).Spelled (textChars s) := by
  have hquote := quoteFor_eq s.toList
  have hbody : ∀ cs : List Char, Quoted (quoteFor s.toList) (cs.flatMap reread)
      (cs.flatMap (escapeChar (quoteFor s.toList))) := by
    intro cs
    induction cs with
    | nil => exact .nil
    | cons c cs ih => exact quoted_escapeChar hquote c ih
  refine .text hquote ?_
  rw [rereadText, String.toList_ofList]
  exact hbody s.toList

lemma cut_textChars (s : String) (cs : List Char) : Cut (textChars s) [.text (rereadText s)] cs :=
  .of_spelled (spelled_textChars s) fun _ _ => trivial

lemma isUnnamed_of_mem_reread {c d : Char} (h : c ∈ reread d) : isUnnamed c = false := by
  rw [reread] at h
  split at h
  · rename_i hd
    have hlt : d.toNat < 128 := by
      simp only [isUnnamed, Bool.or_eq_true, Bool.and_eq_true, decide_eq_true_eq,
        beq_iff_eq] at hd
      omega
    simp only [List.mem_cons, List.not_mem_nil, or_false] at h
    rcases h with rfl | rfl | rfl
    · rfl
    · exact (digitChar_plain (d.toNat / 16) (by omega)).2.2.2
    · exact (digitChar_plain (d.toNat % 16) (by omega)).2.2.2
  · rename_i hd
    obtain rfl := List.mem_singleton.1 h
    simpa using hd

/-- A text without control characters that have no escape of their own. -/
def Clear (s : String) : Prop := ∀ c ∈ s.toList, isUnnamed c = false

instance : DecidablePred Clear := fun s =>
  List.decidableBAll (fun c => isUnnamed c = false) s.toList

lemma clear_rereadText (s : String) : Clear (rereadText s) := by
  intro c hc
  rw [rereadText, String.toList_ofList, List.mem_flatMap] at hc
  obtain ⟨d, -, hc⟩ := hc
  exact isUnnamed_of_mem_reread hc

lemma rereadText_of_clear {s : String} (h : Clear s) : rereadText s = s := by
  have hall : ∀ cs : List Char, (∀ c ∈ cs, isUnnamed c = false) → cs.flatMap reread = cs := by
    intro cs
    induction cs with
    | nil => intro _; rfl
    | cons c cs ih =>
      intro hcs
      obtain ⟨hc, hcs⟩ := List.forall_mem_cons.1 hcs
      rw [List.flatMap_cons, ih hcs, reread, if_neg (by simp [hc])]
      rfl
  rw [rereadText, hall s.toList h, String.ofList_toList]

end Text

/-! ## Integers -/

section Int

variable {n : Int64} {cs : List Char}

lemma intChars_of_nonneg {k : ℤ} (hk : 0 ≤ k) : Decimal.intChars k = Nat.toDigits 10 k.toNat := by
  obtain ⟨m, rfl⟩ := Int.eq_ofNat_of_zero_le hk
  rfl

lemma intChars_of_neg {k : ℤ} (hk : k < 0) :
    Decimal.intChars k = ['-'] ++ Nat.toDigits 10 (-k).toNat := by
  obtain ⟨m, rfl⟩ := Int.eq_negSucc_of_lt_zero hk
  rfl

lemma toInt_neg_of_ne (h : n ≠ Int64.minValue) : (-n).toInt = -n.toInt := by
  have hlow := Int64.le_toInt n
  have hhigh := Int64.toInt_lt n
  have hne : n.toInt ≠ -2 ^ 63 := fun heq =>
    h (Int64.toInt_inj.1 (heq.trans Int64.toInt_minValue.symm))
  rw [Int64.toInt_neg]
  refine Int.bmod_eq_of_le ?_ ?_ <;> omega

/-- The digits of the least integer do not fit 64 bits without its sign. -/
lemma jams_minValue (hcs : Closes cs) : Jams (Decimal.intChars Int64.minValue.toInt) cs := by
  have hneg : Int64.minValue.toInt < 0 := by decide
  have hdigits : (-Int64.minValue.toInt).toNat = 0x8000000000000000 := by decide
  rw [intChars_of_neg hneg, hdigits]
  refine (Cut.symbol (s := .minus) rfl (by decide) _).jams fun line => ?_
  obtain ⟨c, w, hle, hw, hc, hscan⟩ := scanNumber_toDigits 0x8000000000000000 (hcs.int 0)
  obtain ⟨hblank, hcomment⟩ := of_isDigit hc
  rw [if_neg (lt_irrefl _)] at hscan
  refine ⟨.unexpectedChar line c, ?_⟩
  rw [hw, List.cons_append, tokensOf, if_neg (by simp [hblank]), if_neg hcomment, scanToken,
    if_pos hc, hscan]
  rfl

end Int

/-! ## What is read for a literal -/

mutual

/-- The expression that is read for the literal of a value. -/
def literalExpr : Value → Expr
  | .int n => if 0 ≤ n.toInt then .literal (.int n) else .negate (.literal (.int (-n)))
  | .text s => .literal (.text (rereadText s))
  | .list items => .list (literalExprs items)
  | .map fields => .map (literalEntries fields)
  | v => .literal v

/-- The expressions for the items of a list. -/
def literalExprs : List Value → List Expr
  | [] => []
  | v :: rest => literalExpr v :: literalExprs rest

/-- The expressions for the keys and the values of a mapping. -/
def literalEntries {low : Option String} : Entries Value low → List (Expr × Expr)
  | .nil => []
  | .cons key v _ rest => (.literal (.text (rereadText key)), literalExpr v) :: literalEntries rest

end

/-- A value without the least integer. -/
abbrev Bounded (v : Value) : Prop := v.Every (· ≠ Int64.minValue) fun _ => True

section Literal

variable {cs : List Char}

lemma closes_cons {c : Char} (hc : c ∈ closers) (cs : List Char) : Closes (c :: cs) := by
  intro d hd
  obtain rfl : c = d := by simpa using hd
  exact hc

lemma cut_int {n : Int64} (hn : n ≠ Int64.minValue) (hcs : Closes cs) :
    Cut (literalChars (.int n)) (literalExpr (.int n)).tokens cs := by
  rw [literalChars, literalExpr]
  split
  · rename_i hnonneg
    rw [intChars_of_nonneg hnonneg]
    exact .of_spelled (.int hnonneg) (hcs.int n)
  · rename_i hneg
    have hopposite := toInt_neg_of_ne hn
    rw [intChars_of_neg (by omega), ← hopposite]
    have hdigits : Cut (Nat.toDigits 10 (-n).toInt.toNat) [.int (-n)] cs :=
      .of_spelled (.int (by omega)) (hcs.int (-n))
    exact (Cut.symbol (s := .minus) rfl (by decide) _).append hdigits

/-- A comma, and the blank behind it. -/
lemma cut_comma (cs : List Char) : Cut [',', ' '] [.symbol .comma] cs :=
  (Cut.symbol (s := .comma) rfl (by decide) _).append (.blank (by decide) cs)

/-- A colon, and the blank behind it. -/
lemma cut_colon (cs : List Char) : Cut [':', ' '] [.symbol .colon] cs :=
  (Cut.symbol (s := .colon) rfl (by decide) _).append (.blank (by decide) cs)

lemma cut_entry {w : List Char} {ts : List Token} (key : String) (h : Cut w ts cs) :
    Cut (textChars key ++ ':' :: ' ' :: w) (.text (rereadText key) :: .symbol .colon :: ts) cs :=
  (cut_textChars key _).append ((cut_colon _).append h)

lemma jams_entry {w : List Char} (key : String) (h : Jams w cs) :
    Jams (textChars key ++ ':' :: ' ' :: w) cs :=
  (cut_textChars key _).jams ((cut_colon _).jams h)

mutual

/-- **The literal of a value is cut into the tokens of an expression.** -/
theorem cut_literal : ∀ v : Value, v.isFloatFree = true → Bounded v → ∀ cs, Closes cs →
    Cut (literalChars v) (literalExpr v).tokens cs
  | .null, _, _, cs, hcs => .of_spelled (.word (by decide)) (hcs.word _)
  | .bool true, _, _, cs, hcs => .of_spelled (.word (by decide)) (hcs.word _)
  | .bool false, _, _, cs, hcs => .of_spelled (.word (by decide)) (hcs.word _)
  | .int n, _, hn, cs, hcs => cut_int hn hcs
  | .float x, hx, _, cs, hcs => by simp [Value.isFloatFree] at hx
  | .text s, _, _, cs, _ => by
    rw [literalChars, literalExpr, Expr.tokens]
    exact cut_textChars s cs
  | .list items, hitems, hbound, cs, _ => by
    have hclose : Closes ([']'] ++ cs) := closes_cons (by decide) cs
    rw [literalExpr, Expr.tokens, literalChars]
    exact (Cut.symbol (s := .openBracket) rfl (by decide) _).append
      ((cut_items items hitems hbound _ hclose).append
        (Cut.symbol (s := .closeBracket) rfl (by decide) cs))
  | .map fields, hfields, hbound, cs, _ => by
    have hclose : Closes (['\x7d'] ++ cs) := closes_cons (by decide) cs
    rw [literalExpr, Expr.tokens, literalChars]
    exact (Cut.symbol (s := .openBrace) rfl (by decide) _).append
      ((cut_fields fields hfields hbound _ hclose).append
        (Cut.symbol (s := .closeBrace) rfl (by decide) cs))

theorem cut_items : ∀ items : List Value, Value.areFloatFree items = true →
    Value.EveryItem (· ≠ Int64.minValue) (fun _ => True) items → ∀ cs, Closes cs →
      Cut (literalItems items) (itemTokens (literalExprs items)) cs
  | [], _, _, cs, _ => .nil cs
  | [v], hitems, hbound, cs, hcs => by
    rw [Value.areFloatFree, Bool.and_eq_true] at hitems
    exact cut_literal v hitems.1 hbound.1 cs hcs
  | v :: v' :: rest, hitems, hbound, cs, hcs => by
    rw [Value.areFloatFree, Bool.and_eq_true] at hitems
    have hmore := cut_items (v' :: rest) hitems.2 hbound.2 cs hcs
    have hfirst := cut_literal v hitems.1 hbound.1
    rw [literalItems, literalExprs, literalExprs, itemTokens]
    · exact (hfirst _ (closes_cons (by decide) _)).append ((cut_comma _).append hmore)
    · simp

theorem cut_fields {low : Option String} : ∀ fields : Entries Value low,
    Value.fieldsFloatFree fields = true →
    Value.EveryField (· ≠ Int64.minValue) (fun _ => True) fields → ∀ cs, Closes cs →
      Cut (literalFields fields) (entryTokens (literalEntries fields)) cs
  | .nil, _, _, cs, _ => .nil cs
  | .cons key v _ .nil, hfields, hbound, cs, hcs => by
    rw [Value.fieldsFloatFree, Bool.and_eq_true] at hfields
    exact cut_entry key (cut_literal v hfields.1 hbound.2.1 cs hcs)
  | .cons key v _ (.cons key' v' above rest), hfields, hbound, cs, hcs => by
    rw [Value.fieldsFloatFree, Bool.and_eq_true] at hfields
    have hmore := cut_fields (.cons key' v' above rest) hfields.2 hbound.2.2 cs hcs
    have hclose := closes_cons (c := ',') (by decide)
      (' ' :: literalFields (.cons key' v' above rest) ++ cs)
    have hentry := (cut_entry key (cut_literal v hfields.1 hbound.2.1 _ hclose)).append
      ((cut_comma _).append hmore)
    rw [literalFields, literalEntries, literalEntries, entryTokens]
    · exact hentry
    · simp

end

mutual

/-- A literal with the least integer in it is not cut into tokens. -/
theorem jams_literal : ∀ v : Value, v.isFloatFree = true → ¬ Bounded v → ∀ cs, Closes cs →
    Jams (literalChars v) cs
  | .null, _, hn, _, _ => absurd trivial hn
  | .bool _, _, hn, _, _ => absurd trivial hn
  | .float _, _, hn, _, _ => absurd trivial hn
  | .text _, _, hn, _, _ => absurd trivial hn
  | .int n, _, hn, cs, hcs => by
    obtain rfl : n = Int64.minValue := by simpa [Value.Every] using hn
    exact jams_minValue hcs
  | .list items, hitems, hn, cs, _ => by
    have hclose : Closes ([']'] ++ cs) := closes_cons (by decide) cs
    have hjams := (jams_items items hitems hn _ hclose).append
    rw [literalChars]
    exact (Cut.symbol (s := .openBracket) rfl (by decide) _).jams hjams
  | .map fields, hfields, hn, cs, _ => by
    have hclose : Closes (['\x7d'] ++ cs) := closes_cons (by decide) cs
    have hjams := (jams_fields fields hfields hn _ hclose).append
    rw [literalChars]
    exact (Cut.symbol (s := .openBrace) rfl (by decide) _).jams hjams

theorem jams_items : ∀ items : List Value, Value.areFloatFree items = true →
    ¬ Value.EveryItem (· ≠ Int64.minValue) (fun _ => True) items → ∀ cs, Closes cs →
      Jams (literalItems items) cs
  | [], _, hn, _, _ => absurd trivial hn
  | [v], hitems, hn, cs, hcs => by
    rw [Value.areFloatFree, Bool.and_eq_true] at hitems
    exact jams_literal v hitems.1 (fun hv => hn ⟨hv, trivial⟩) cs hcs
  | v :: v' :: rest, hitems, hn, cs, hcs => by
    rw [Value.areFloatFree, Bool.and_eq_true] at hitems
    have hclose := closes_cons (c := ',') (by decide) (' ' :: literalItems (v' :: rest) ++ cs)
    rw [literalItems]
    · by_cases hv : Bounded v
      · -- the least integer is in one of the items behind the first
        have hmore := jams_items (v' :: rest) hitems.2 (fun hrest => hn ⟨hv, hrest⟩) cs hcs
        exact (cut_literal v hitems.1 hv _ hclose).jams ((cut_comma _).jams hmore)
      · exact (jams_literal v hitems.1 hv _ hclose).append
    · simp

theorem jams_fields {low : Option String} : ∀ fields : Entries Value low,
    Value.fieldsFloatFree fields = true →
    ¬ Value.EveryField (· ≠ Int64.minValue) (fun _ => True) fields → ∀ cs, Closes cs →
      Jams (literalFields fields) cs
  | .nil, _, hn, _, _ => absurd trivial hn
  | .cons key v _ .nil, hfields, hn, cs, hcs => by
    rw [Value.fieldsFloatFree, Bool.and_eq_true] at hfields
    exact jams_entry key (jams_literal v hfields.1 (fun hv => hn ⟨trivial, hv, trivial⟩) cs hcs)
  | .cons key v _ (.cons key' v' above rest), hfields, hn, cs, hcs => by
    rw [Value.fieldsFloatFree, Bool.and_eq_true] at hfields
    have hclose := closes_cons (c := ',') (by decide)
      (' ' :: literalFields (.cons key' v' above rest) ++ cs)
    rw [literalFields]
    · by_cases hv : Bounded v
      · have hmore := jams_fields (.cons key' v' above rest) hfields.2
          (fun hrest => hn ⟨trivial, hv, hrest⟩) cs hcs
        exact (cut_entry key (cut_literal v hfields.1 hv _ hclose)).jams ((cut_comma _).jams hmore)
      · exact (jams_entry key (jams_literal v hfields.1 hv _ hclose)).append
    · simp

end

mutual

theorem writable_literalExpr : ∀ v : Value, v.isFloatFree = true → Bounded v →
    (literalExpr v).Writable
  | .null, _, _ => trivial
  | .bool _, _, _ => trivial
  | .int n, _, hn => by
    rw [literalExpr]
    split
    · rename_i hnonneg
      exact hnonneg
    · rename_i hneg
      have hopposite := toInt_neg_of_ne hn
      show 0 ≤ (-n).toInt
      omega
  | .float _, hx, _ => by simp [Value.isFloatFree] at hx
  | .text _, _, _ => trivial
  | .list items, hitems, hbound => writable_literalExprs items hitems hbound
  | .map fields, hfields, hbound => writable_literalEntries fields hfields hbound

theorem writable_literalExprs : ∀ items : List Value, Value.areFloatFree items = true →
    Value.EveryItem (· ≠ Int64.minValue) (fun _ => True) items → ItemsWritable (literalExprs items)
  | [], _, _ => trivial
  | v :: rest, hitems, hbound => by
    rw [Value.areFloatFree, Bool.and_eq_true] at hitems
    exact ⟨writable_literalExpr v hitems.1 hbound.1, writable_literalExprs rest hitems.2 hbound.2⟩

theorem writable_literalEntries {low : Option String} : ∀ fields : Entries Value low,
    Value.fieldsFloatFree fields = true →
    Value.EveryField (· ≠ Int64.minValue) (fun _ => True) fields →
      EntriesWritable (literalEntries fields)
  | .nil, _, _ => trivial
  | .cons _ v _ rest, hfields, hbound => by
    rw [Value.fieldsFloatFree, Bool.and_eq_true] at hfields
    exact ⟨trivial, writable_literalExpr v hfields.1 hbound.2.1,
      writable_literalEntries rest hfields.2 hbound.2.2⟩

end

end Literal

end Script

end Dataflow

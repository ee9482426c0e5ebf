import Dataflow.Proofs.Script.Literal
import Dataflow.Script.Evaluation

/-!
# Literals are read back

A script that returns a literal gives the value that was written, except that the least integer
makes no script, and that control characters without an escape of their own come back as the
digits of their codes (`behavior_literalScript`).  So the two sides agree on the values without
these, and on no others (`compile_literal_iff`).
-/

namespace Dataflow.Script

open Program

/-! ## The value that is read -/

mutual

/-- The value that is read for the literal of a value. -/
def rereadValue : Value → Value
  | .text s => .text (rereadText s)
  | .list items => .list (rereadItems items)
  | .map fields => .map (Dict.ofList (rereadFields fields))
  | v => v

/-- The values that are read for the items of a list. -/
def rereadItems : List Value → List Value
  | [] => []
  | v :: rest => rereadValue v :: rereadItems rest

/-- The keys and values that are read for those of a mapping. -/
def rereadFields {low : Option String} : Entries Value low → List (String × Value)
  | .nil => []
  | .cons key v _ rest => (rereadText key, rereadValue v) :: rereadFields rest

end

section Reread

variable {locals : Dict Value}

lemma evaluate_int {n : Int64} (hn : n ≠ Int64.minValue) :
    evaluate locals (literalExpr (.int n)) = pure (.int n) := by
  rw [literalExpr]
  split
  · rw [evaluate]
  · have hopposite : -(-n).toInt = n.toInt := by
      have hneg := toInt_neg_of_ne hn
      omega
    have hnegated : negated (.int (-n)) = .ok (.int n) := by
      rw [negated, exact, hopposite, if_pos (Value.fitsInt_toInt n), Int64.ofInt_toInt]
    rw [evaluate, evaluate]
    simp only [bind, pure, hnegated, Computed.quiet, List.append_nil]

mutual

/-- The expression of a literal gives the value that is read for it, and prints nothing. -/
theorem evaluate_literalExpr : ∀ v : Value, Bounded v →
    evaluate locals (literalExpr v) = pure (rereadValue v)
  | .null, _ => rfl
  | .bool _, _ => rfl
  | .int _, hn => evaluate_int hn
  | .float _, _ => rfl
  | .text _, _ => rfl
  | .list items, hbound => by
    rw [literalExpr, evaluate, evaluate_literalExprs items hbound]
    rfl
  | .map fields, hbound => by
    rw [literalExpr, evaluate, evaluate_literalEntries fields hbound .empty]
    rfl

theorem evaluate_literalExprs : ∀ items : List Value,
    Value.EveryItem (· ≠ Int64.minValue) (fun _ => True) items →
      evaluateItems locals (literalExprs items) = pure (rereadItems items)
  | [], _ => rfl
  | v :: rest, hbound => by
    rw [literalExprs, evaluateItems, evaluate_literalExpr v hbound.1,
      evaluate_literalExprs rest hbound.2]
    rfl

theorem evaluate_literalEntries {low : Option String} : ∀ fields : Entries Value low,
    Value.EveryField (· ≠ Int64.minValue) (fun _ => True) fields → ∀ d : Dict Value,
      evaluateEntries locals d (literalEntries fields) =
        pure ((rereadFields fields).foldl (fun d e => d.insert e.1 e.2) d)
  | .nil, _, _ => rfl
  | .cons key v _ rest, hbound, d => by
    rw [literalEntries, evaluateEntries, evaluate, evaluate_literalExpr v hbound.2.1]
    simp only [bind, pure, keyOf, Computed.quiet, List.nil_append]
    rw [evaluate_literalEntries rest hbound.2.2]
    rfl

end

end Reread

/-! ## Where it is the value that was written -/

mutual

/-- All texts that are read are clear. -/
theorem clear_rereadValue : ∀ v : Value, (rereadValue v).Every (fun _ => True) Clear
  | .null => trivial
  | .bool _ => trivial
  | .int _ => trivial
  | .float _ => trivial
  | .text s => clear_rereadText s
  | .list items => clear_rereadItems items
  | .map fields => by
    have hfields := clear_rereadFields fields
    refine Value.everyField_iff.2 fun ⟨key, v⟩ he => ?_
    exact hfields _ (Dict.mem_of_find?_ofList (Entries.mem_toList_iff.1 he))

theorem clear_rereadItems : ∀ items : List Value,
    Value.EveryItem (fun _ => True) Clear (rereadItems items)
  | [] => trivial
  | v :: rest => ⟨clear_rereadValue v, clear_rereadItems rest⟩

theorem clear_rereadFields {low : Option String} : ∀ fields : Entries Value low,
    ∀ e ∈ rereadFields fields, Clear e.1 ∧ e.2.Every (fun _ => True) Clear
  | .nil => by simp [rereadFields]
  | .cons key v _ rest =>
    List.forall_mem_cons.2 ⟨⟨clear_rereadText key, clear_rereadValue v⟩, clear_rereadFields rest⟩

end

mutual

/-- A value with clear texts is read as it is. -/
theorem rereadValue_of_clear : ∀ v : Value, v.Every (fun _ => True) Clear → rereadValue v = v
  | .null, _ => rfl
  | .bool _, _ => rfl
  | .int _, _ => rfl
  | .float _, _ => rfl
  | .text s, h => by rw [rereadValue, rereadText_of_clear h]
  | .list items, h => by rw [rereadValue, rereadItems_of_clear items h]
  | .map fields, h => by rw [rereadValue, rereadFields_of_clear fields h, Dict.ofList_toList]

theorem rereadItems_of_clear : ∀ items : List Value,
    Value.EveryItem (fun _ => True) Clear items → rereadItems items = items
  | [], _ => rfl
  | v :: rest, h => by
    rw [rereadItems, rereadValue_of_clear v h.1, rereadItems_of_clear rest h.2]

theorem rereadFields_of_clear {low : Option String} : ∀ fields : Entries Value low,
    Value.EveryField (fun _ => True) Clear fields → rereadFields fields = fields.toList
  | .nil, _ => rfl
  | .cons key v _ rest, h => by
    rw [rereadFields, rereadText_of_clear h.1, rereadValue_of_clear v h.2.1,
      rereadFields_of_clear rest h.2.2, Entries.toList]

end

lemma rereadValue_eq_iff {v : Value} : rereadValue v = v ↔ v.Every (fun _ => True) Clear :=
  ⟨fun h => h ▸ clear_rereadValue v, rereadValue_of_clear v⟩

/-! ## The line of a literal -/

lemma unbroken_escapeChar (quote c : Char) : Unbroken (escapeChar quote c) := by
  unfold escapeChar
  split
  case h_5 hslash hline hreturn htab =>
    have hc : c ≠ '\n' ∧ c ≠ '\r' := ⟨hline, hreturn⟩
    split_ifs with hsame hcode
    · simp [Unbroken, hc]
    · have hlt : c.toNat < 128 := by
        simp only [Bool.or_eq_true, decide_eq_true_eq] at hcode
        omega
      have hdigit : ∀ n < 16, Nat.digitChar n ≠ '\n' ∧ Nat.digitChar n ≠ '\r' := by decide
      have hhigh := hdigit (c.toNat / 16) (by omega)
      have hlow := hdigit (c.toNat % 16) (by omega)
      simp [Unbroken, hhigh, hlow]
    · simp [Unbroken, hc]
  all_goals exact unbroken_of_isInner (by decide)

lemma unbroken_textChars (s : String) : Unbroken (textChars s) := by
  have hends : quoteFor s.toList ≠ '\n' ∧ quoteFor s.toList ≠ '\r' := by
    rcases quoteFor_eq s.toList with h | h <;> rw [h] <;> decide
  refine List.forall_mem_cons.2 ⟨hends, List.forall_mem_append.2 ⟨?_, by simpa using hends⟩⟩
  intro c hc
  obtain ⟨d, -, hd⟩ := List.mem_flatMap.1 hc
  exact unbroken_escapeChar _ d c hd

lemma unbroken_intChars (k : ℤ) : Unbroken (Decimal.intChars k) := by
  rcases le_or_gt 0 k with hk | hk
  · rw [intChars_of_nonneg hk]
    exact unbroken_toDigits _
  · rw [intChars_of_neg hk]
    exact List.forall_mem_append.2 ⟨unbroken_of_isInner (by decide), unbroken_toDigits _⟩

lemma unbroken_entry {w : List Char} (key : String) (h : Unbroken w) :
    Unbroken (textChars key ++ ':' :: ' ' :: w) :=
  List.forall_mem_append.2 ⟨unbroken_textChars key,
    List.forall_mem_cons.2 ⟨by decide, List.forall_mem_cons.2 ⟨by decide, h⟩⟩⟩

mutual

/-- A literal is written in one line. -/
theorem unbroken_literal : ∀ v : Value, v.isFloatFree = true → Unbroken (literalChars v)
  | .null, _ => unbroken_of_isInner (by decide)
  | .bool true, _ => unbroken_of_isInner (by decide)
  | .bool false, _ => unbroken_of_isInner (by decide)
  | .int n, _ => unbroken_intChars n.toInt
  | .float _, hx => by simp [Value.isFloatFree] at hx
  | .text s, _ => unbroken_textChars s
  | .list items, hitems =>
    List.forall_mem_append.2 ⟨List.forall_mem_cons.2 ⟨by decide, unbroken_items items hitems⟩,
      unbroken_of_isInner (by decide)⟩
  | .map fields, hfields =>
    List.forall_mem_append.2 ⟨List.forall_mem_cons.2 ⟨by decide, unbroken_fields fields hfields⟩,
      unbroken_of_isInner (by decide)⟩

theorem unbroken_items : ∀ items : List Value, Value.areFloatFree items = true →
    Unbroken (literalItems items)
  | [], _ => by simp [literalItems, Unbroken]
  | [v], hitems => by
    rw [Value.areFloatFree, Bool.and_eq_true] at hitems
    exact unbroken_literal v hitems.1
  | v :: v' :: rest, hitems => by
    rw [Value.areFloatFree, Bool.and_eq_true] at hitems
    have hmore := unbroken_items (v' :: rest) hitems.2
    rw [literalItems]
    · exact List.forall_mem_append.2 ⟨unbroken_literal v hitems.1,
        List.forall_mem_cons.2 ⟨by decide, List.forall_mem_cons.2 ⟨by decide, hmore⟩⟩⟩
    · simp

theorem unbroken_fields {low : Option String} : ∀ fields : Entries Value low,
    Value.fieldsFloatFree fields = true → Unbroken (literalFields fields)
  | .nil, _ => by simp [literalFields, Unbroken]
  | .cons key v _ .nil, hfields => by
    rw [Value.fieldsFloatFree, Bool.and_eq_true] at hfields
    exact unbroken_entry key (unbroken_literal v hfields.1)
  | .cons key v _ (.cons key' v' above rest), hfields => by
    rw [Value.fieldsFloatFree, Bool.and_eq_true] at hfields
    have hmore := unbroken_fields (.cons key' v' above rest) hfields.2
    rw [literalFields]
    · exact List.forall_mem_append.2 ⟨unbroken_entry key (unbroken_literal v hfields.1),
        List.forall_mem_cons.2 ⟨by decide, List.forall_mem_cons.2 ⟨by decide, hmore⟩⟩⟩
    · simp

end

/-! ## Bodies in the line of a header -/

section Inline

variable {f : FunctionDef} {s : Statement}

/-- A statement behind the colon of a header is the body. -/
lemma header_inline (hf : f.Writable) (hs : s.Writable) :
    header (f.headerTokens.tail ++ s.tokens) = .ok ⟨f.name, f.params, [s]⟩ := by
  have hstatement := statement_tokens hs
  rw [header_append hf]
  cases hs' : s.tokens with
  | nil => exact absurd hs' (statement_tokens_ne_nil hs)
  | cons t ts =>
    rw [hs'] at hstatement
    simp only [hstatement]
    rfl

lemma definitions_inline (hf : f.Writable) (hs : s.Writable) (number indent : ℕ) :
    definitions [⟨number, indent, f.headerTokens ++ s.tokens⟩] =
      .ok [⟨f.name, f.params, [s]⟩] := by
  have hheader : atLine number (header (f.headerTokens.tail ++ s.tokens)) =
      .ok ⟨f.name, f.params, [s]⟩ := by
    rw [header_inline hf hs]
    rfl
  have htokens : f.headerTokens ++ s.tokens = .word "def" :: (f.headerTokens.tail ++ s.tokens) :=
    rfl
  rw [htokens, definitions]
  simp only [hheader, bind, Except.bind, List.takeWhile_nil, List.dropWhile_nil, definitions]
  rfl

end Inline

/-! ## The script of a literal -/

/-- The function without parameters that returns an expression. -/
def constant (e : Expr) : FunctionDef := ⟨"f", [], [.return (some e)]⟩

/-- The script of the function that returns a value. -/
def literalScript (v : Value) : String := "def f(): return " ++ literal v

section LiteralScript

variable {v : Value}

lemma toList_literalScript (v : Value) :
    (literalScript v).toList = "def f(): return ".toList ++ literalChars v := by
  show ("def f(): return " ++ String.ofList (literalChars v)).toList = _
  rw [String.toList_append]
  exact congrArg _ String.toList_ofList

lemma cut_word (name : String) (h : isWord name = true) (cs : List Char) :
    Cut (name.toList ++ [' ']) [.word name] cs :=
  (Cut.of_spelled (.word h) (endsBefore_blank _ _)).append (.blank (by decide) cs)

lemma cut_literalScript (e : Expr) (cs : List Char) :
    Cut "def f(): return ".toList ((constant e).headerTokens ++ [.word "return"]) cs := by
  have hends : ∀ cs, (Token.word "f").EndsBefore ('(' :: cs) := by
    intro cs c hc
    obtain rfl : '(' = c := by simpa using hc
    exact (by decide +kernel : isWordChar '(' = false)
  have hname : ∀ cs, Cut ['f', '('] [.word "f", .symbol .openParen] cs := fun cs =>
    (Cut.of_spelled (.word (by decide)) (hends cs)).append
      (.symbol (s := .openParen) rfl (by decide) cs)
  exact (cut_word "def" (by decide) _).append
    ((hname _).append ((Cut.symbol (s := .closeParen) rfl (by decide) _).append
      ((cut_colon _).append (cut_word "return" (by decide) cs))))

lemma lines_literalScript (hv : v.isFloatFree = true) :
    Text.lines (literalScript v).toList = [(literalScript v).toList] := by
  have hunbroken : Unbroken (literalScript v).toList := by
    rw [toList_literalScript]
    exact List.forall_mem_append.2 ⟨unbroken_of_isInner (by decide), unbroken_literal v hv⟩
  refine Text.lines_of_isLine hunbroken.isLine ?_
  rw [toList_literalScript]
  exact List.cons_ne_nil _ _

lemma linesOf_literalScript (hv : v.isFloatFree = true) :
    linesOf (literalScript v) = (lineOf 1 (literalScript v).toList).map Option.toList := by
  rw [linesOf, lines_literalScript hv, List.zipIdx_cons, List.mapM_cons]
  dsimp only
  cases lineOf 1 (literalScript v).toList with
  | error e => rfl
  | ok line => cases line <;> rfl

/-- Without the least integer, the script of a literal is one function. -/
lemma parse_literalScript (hv : v.isFloatFree = true) (hbound : Bounded v) :
    parse (literalScript v) = .ok [constant (literalExpr v)] := by
  have hwritable : (Statement.return (some (literalExpr v))).Writable :=
    writable_literalExpr v hv hbound
  have hname : IsName "f" := by decide
  have hf : (constant (literalExpr v)).Writable :=
    ⟨hname, by simp [constant], by simpa [constant] using hwritable⟩
  have hcut := (cut_literalScript (literalExpr v) _).append
    (cut_literal v hv hbound [] (by simp [Closes]))
  have htokens : tokensOf 1 (literalScript v).toList =
      .ok ((constant (literalExpr v)).headerTokens ++
        (Statement.return (some (literalExpr v))).tokens) := by
    have hline := hcut 1
    rw [List.append_nil, ← toList_literalScript, tokensOf] at hline
    rw [hline]
    simp [Except.map, Statement.tokens]
  rw [parse, linesOf_literalScript hv, lineOf, htokens]
  exact definitions_inline hf hwritable _ _

/-- With the least integer there is no script. -/
lemma parse_minValue (hv : v.isFloatFree = true) (hbound : ¬ Bounded v) :
    ∃ e, parse (literalScript v) = .error e := by
  have hjams := (cut_literalScript (literalExpr v) _).jams
    (jams_literal v hv hbound [] (by simp [Closes]))
  obtain ⟨e, he⟩ := hjams 1
  rw [List.append_nil, ← toList_literalScript] at he
  refine ⟨e, ?_⟩
  rw [parse, linesOf_literalScript hv, lineOf, he]
  rfl

/-- **What the script of a literal gives**: the value that is read for it, and no effect. -/
theorem behavior_literalScript (hv : v.isFloatFree = true) (hbound : Bounded v) :
    compile "f" (literalScript v) = .value (constant (literalExpr v)).behavior ∧
      (constant (literalExpr v)).behavior ⟨[]⟩ = ⟨.value (rereadValue v), []⟩ := by
  have hfind : findFunction "f" (literalScript v) = .ok (constant (literalExpr v)) := by
    rw [findFunction, parse_literalScript hv hbound]
    rfl
  have hcall : (constant (literalExpr v)).call ⟨[]⟩ = pure (rereadValue v) := by
    have hvalue : evaluate .empty (literalExpr v) = pure (rereadValue v) :=
      evaluate_literalExpr v hbound
    rw [← hvalue]
    rfl
  refine ⟨by rw [compile, hfind], ?_⟩
  rw [FunctionDef.behavior, hcall]
  rfl

end LiteralScript

/-- **Where literals and scripts agree**: a script that returns the literal of a value without
doubles gives this value just if the least integer is not in it, and no text or key has a control
character without an escape of its own. -/
theorem compile_literal_iff (v : Value) (hv : v.isFloatFree = true) :
    (∃ b, compile "f" ("def f(): return " ++ literal v) = .value b ∧
      (b ⟨[]⟩).outcome = .value v) ↔ v.Every (· ≠ Int64.minValue) Clear := by
  rw [Value.every_iff_and, ← rereadValue_eq_iff]
  change (∃ b, compile "f" (literalScript v) = .value b ∧ _) ↔ Bounded v ∧ _
  constructor
  · rintro ⟨b, hb, hcall⟩
    by_cases hbound : Bounded v
    · obtain ⟨hcompile, hbehavior⟩ := behavior_literalScript hv hbound
      obtain rfl := Outcome.value.inj (hb.symm.trans hcompile)
      rw [hbehavior] at hcall
      exact ⟨hbound, Outcome.value.inj hcall⟩
    · obtain ⟨e, he⟩ := parse_minValue hv hbound
      rw [compile, findFunction, he] at hb
      simp [bind, Except.bind] at hb
  · rintro ⟨hbound, hsame⟩
    obtain ⟨hcompile, hbehavior⟩ := behavior_literalScript hv hbound
    exact ⟨_, hcompile, by rw [hbehavior, hsame]⟩

/-- Texts with quotes and a line feed in lists and mappings, and negative numbers. -/
def nested : Value :=
  .map (Dict.ofList [("it's", .list [.int (-7), .text "a \"b\"\n'c'", .null]),
    ("", .map (Dict.ofList [("k", .bool true)]))])

/-- One value comes back, one is no script, and one comes back as another text. -/
theorem compile_literal_iff_nested :
    (nested.isFloatFree = true ∧
      ∃ b, compile "f" ("def f(): return " ++ literal nested) = .value b ∧
        (b ⟨[]⟩).outcome = .value nested) ∧
    (∀ v ∈ [Value.list [.int Int64.minValue], .text "\x07"], v.isFloatFree = true ∧
      ¬ ∃ b, compile "f" ("def f(): return " ++ literal v) = .value b ∧
        (b ⟨[]⟩).outcome = .value v) := by
  refine ⟨⟨rfl, (compile_literal_iff nested rfl).2 (by decide)⟩, ?_⟩
  intro v hmem
  have hother : v.isFloatFree = true ∧ ¬ v.Every (· ≠ Int64.minValue) Clear := by
    revert v
    decide
  exact ⟨hother.1, fun h => hother.2 ((compile_literal_iff v hother.1).1 h)⟩

end Dataflow.Script

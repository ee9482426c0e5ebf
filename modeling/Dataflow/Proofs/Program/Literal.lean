import Dataflow.Proofs.Program.Grammar
import Dataflow.Proofs.Script.Literal

/-!
# Reading literals back

The literal of a value without doubles is read back as that value by the grammar of Python, and
no control character of ASCII is in it (`Program.literal_read_back`).  The induction reads a
literal up to what stands behind it, which is the end or one of the signs that close a literal
(`Program.valueAt?_literalChars`).
-/

namespace Dataflow

namespace Program

open Python
open Script (Closes mem_closers closes_cons quoteFor_eq)

variable {quote c : Char} {cs rest : List Char}

/-! ## Texts -/

lemma hexValue?_digitChar : ∀ n < 16, Json.hexValue? (Nat.digitChar n) = some n := by decide

/-- A character is read for its form between quotes. -/
lemma scanText_escapeChar (hquote : quote = '"' ∨ quote = '\'') (c : Char) (cs : List Char) :
    scanText quote (escapeChar quote c ++ cs) =
      (scanText quote cs).map fun r => (c :: r.1, r.2) := by
  have hnone : ∀ e d, escaped? e = some d → e ≠ 'x' → scanText quote ('\\' :: e :: cs) =
      (scanText quote cs).map fun r => (d :: r.1, r.2) := by
    intro e d he hx
    rw [scanText]
    · rw [he]
      cases scanText quote cs <;> rfl
    · simp [hx]
  unfold escapeChar
  split
  · exact hnone '\\' _ rfl (by decide)
  · exact hnone 'n' _ rfl (by decide)
  · exact hnone 'r' _ rfl (by decide)
  · exact hnone 't' _ rfl (by decide)
  · rename_i hslash hline hreturn _
    split_ifs with hc hcode
    · subst hc
      rcases hquote with rfl | rfl
      · exact hnone '"' _ rfl (by decide)
      · exact hnone '\'' _ rfl (by decide)
    · have hlt : c.toNat < 128 := by
        simp only [Bool.or_eq_true, decide_eq_true_eq] at hcode
        omega
      have hcode' : Char.ofNat (16 * (c.toNat / 16) + c.toNat % 16) = c := by
        rw [Nat.div_add_mod, Char.ofNat_toNat]
      simp only [List.cons_append, List.nil_append, scanText]
      rw [hexValue?_digitChar _ (by omega), hexValue?_digitChar _ (by omega)]
      cases scanText quote cs <;> simp [hcode']
    · have hbreaks : breaksText c = false := by
        simp only [Bool.or_eq_true, decide_eq_true_eq, not_or] at hcode
        simp only [breaksText, Bool.or_eq_false_iff, beq_eq_false_iff_ne]
        refine ⟨⟨hline, hreturn⟩, ?_⟩
        rintro rfl
        exact hcode.1 (by decide)
      have hslash' : c ≠ '\\' := by simpa using hslash
      rw [List.singleton_append, scanText]
      · simp [hc, hslash', hbreaks]
      · simp [hslash']
      · simp [hslash']

/-- The escaped characters of a text are read up to the closing quote. -/
lemma scanText_flatMap (hquote : quote = '"' ∨ quote = '\'') (s rest : List Char) :
    scanText quote (s.flatMap (escapeChar quote) ++ quote :: rest) = some (s, rest) := by
  induction s with
  | nil => rcases hquote with rfl | rfl <;> simp [scanText]
  | cons c s ih =>
    rw [List.flatMap_cons, List.append_assoc, scanText_escapeChar hquote, ih]
    rfl

/-- The form of a character does not start with the quote. -/
lemma exists_escapeChar (hquote : quote = '"' ∨ quote = '\'') (c : Char) :
    ∃ d w, escapeChar quote c = d :: w ∧ d ≠ quote := by
  have hslash : '\\' ≠ quote := by rcases hquote with rfl | rfl <;> decide
  unfold escapeChar
  split
  iterate 4 exact ⟨'\\', _, rfl, hslash⟩
  split_ifs with hc
  · exact ⟨'\\', _, rfl, hslash⟩
  · exact ⟨'\\', _, rfl, hslash⟩
  · exact ⟨c, _, rfl, hc⟩

lemma isLong_flatMap (hquote : quote = '"' ∨ quote = '\'') (s : List Char)
    (hrest : ∀ c ∈ rest.head?, c ≠ quote) :
    isLong quote (s.flatMap (escapeChar quote) ++ quote :: rest) = false := by
  cases s with
  | nil =>
    cases rest with
    | nil => rfl
    | cons c rest => simp [isLong, hrest c rfl]
  | cons c s =>
    obtain ⟨d, w, hchars, hne⟩ := exists_escapeChar hquote c
    rw [List.flatMap_cons, hchars, List.cons_append, List.cons_append]
    cases w ++ s.flatMap (escapeChar quote) ++ quote :: rest <;> simp [isLong, hne]

/-- A text is read from its literal, up to what stands behind it. -/
lemma valueAt?_textChars (s : String) (h : Closes rest) :
    valueAt? (textChars s ++ rest) = some (.text s, rest) := by
  have hquote := quoteFor_eq s.toList
  rw [textChars]
  generalize quoteFor s.toList = quote at hquote
  have hrest : ∀ c ∈ rest.head?, c ≠ quote := by
    intro c hc
    rcases mem_closers.1 (h c hc) with rfl | rfl | rfl | rfl <;> rcases hquote with rfl | rfl <;>
      decide
  have hchars : quote :: s.toList.flatMap (escapeChar quote) ++ [quote] ++ rest =
      quote :: (s.toList.flatMap (escapeChar quote) ++ quote :: rest) := by simp
  have hisQuote : quote = '\'' ∨ quote = '"' := hquote.symm
  rw [hchars, valueAt?_cons, isLong_flatMap hquote s.toList hrest,
    scanText_flatMap hquote s.toList rest]
  simp [hisQuote]

/-! ## Words and integers -/

/-- A character that closes a literal goes on with no word and no number. -/
lemma isNumberChar_of_closes (h : Closes rest) : ∀ c ∈ rest.head?, isNumberChar c = false := by
  intro c hc
  rcases mem_closers.1 (h c hc) with rfl | rfl | rfl | rfl <;> decide

lemma isNameChar_of_closes (h : Closes rest) : ∀ c ∈ rest.head?, isNameChar c = false := by
  intro c hc
  have hnumber := isNumberChar_of_closes h c hc
  rw [isNumberChar, Bool.or_eq_false_iff] at hnumber
  exact hnumber.1

/-- A name is read up to what stands behind it. -/
lemma valueAt?_name {w : List Char} {v : Value} (hw : w.all isNameChar = true)
    (hc : c ∉ ['\'', '"', '[', '\x7b', '-'] ∧ Text.isDigit c = false)
    (hv : constant? (c :: w) = some v) (h : Closes rest) :
    valueAt? (c :: w ++ rest) = some (v, rest) := by
  obtain ⟨htake, hdrop⟩ := Script.takeWhile_dropWhile_append (List.all_eq_true.1 hw)
    (isNameChar_of_closes h)
  obtain ⟨hsigns, hdigit⟩ := hc
  simp only [List.mem_cons, List.not_mem_nil, or_false, not_or] at hsigns
  rw [List.cons_append, valueAt?_cons, htake, hdrop, hv]
  simp [hsigns, hdigit]

lemma isNumberChar_of_isDigit (h : Text.isDigit c = true) : isNumberChar c = true := by
  simp only [Text.isDigit, Bool.and_eq_true, decide_eq_true_eq] at h
  have hdigit : c.isDigit = true := by simpa [Char.isDigit, Char.le_def] using h
  simp [isNumberChar, isNameChar, Char.isAlphanum, hdigit]

lemma isInteger_toDigits (m : ℕ) : isInteger (Nat.toDigits 10 m) = true := by
  have hwhole := Json.isWhole_toDigits m
  have hzero : (Nat.toDigits 10 m).head? = some '0' → (Nat.toDigits 10 m).all (· == '0') := by
    intro hhead
    cases hdigits : Nat.toDigits 10 m with
    | nil => rfl
    | cons c ds =>
      rw [hdigits] at hhead
      obtain rfl : c = '0' := by simpa using hhead
      cases ds with
      | nil => rfl
      | cons d ds => exact absurd hdigits (hwhole.ne_zero_cons d ds)
  simp only [isInteger, Bool.and_eq_true, Bool.or_eq_true, Bool.not_eq_true', bne_iff_ne, ne_eq,
    List.isEmpty_eq_false_iff]
  refine ⟨⟨hwhole.ne_nil, List.all_eq_true.2 hwhole.isDigit⟩, ?_⟩
  by_cases hhead : (Nat.toDigits 10 m).head? = some '0'
  · exact .inr (hzero hhead)
  · exact .inl hhead

/-- The digits of a number are the run that they start, up to what closes the literal. -/
lemma takeWhile_toDigits (m : ℕ) (h : Closes rest) :
    (Nat.toDigits 10 m ++ rest).takeWhile isNumberChar = Nat.toDigits 10 m ∧
      (Nat.toDigits 10 m ++ rest).dropWhile isNumberChar = rest :=
  Script.takeWhile_dropWhile_append
    (fun _ hd => isNumberChar_of_isDigit (Json.isDigit_of_mem_toDigits hd))
    (isNumberChar_of_closes h)

lemma integer?_toDigits (negative : Bool) (m : ℕ) {n : Int64}
    (hn : n.toInt = if negative then -(m : ℤ) else m) :
    integer? negative (Nat.toDigits 10 m) = some (.int n) := by
  have hfits := Value.fitsInt_toInt n
  rw [integer?, isInteger_toDigits, Json.digitsValue_toDigits]
  simp only [← hn, hfits, Bool.and_self, if_true, Int64.ofInt_toInt]

lemma exists_toDigits (m : ℕ) :
    ∃ d ds, Nat.toDigits 10 m = d :: ds ∧ Text.isDigit d = true := by
  have hwhole := Json.isWhole_toDigits m
  cases hdigits : Nat.toDigits 10 m with
  | nil => exact absurd hdigits hwhole.ne_nil
  | cons d ds => exact ⟨d, ds, rfl, hwhole.isDigit d (by simp [hdigits])⟩

lemma of_isDigit (h : Text.isDigit c = true) :
    isBlank c = false ∧ c ∉ ['\'', '"', '[', ']', '\x7b', '\x7d', '-'] := by
  constructor
  · simp only [isBlank, Bool.or_eq_false_iff, beq_eq_false_iff_ne]
    refine ⟨⟨⟨⟨?_, ?_⟩, ?_⟩, ?_⟩, ?_⟩ <;> rintro rfl <;> simp [Text.isDigit] at h
  · simp only [List.mem_cons, List.not_mem_nil, or_false, not_or]
    refine ⟨?_, ?_, ?_, ?_, ?_, ?_, ?_⟩ <;> rintro rfl <;> simp [Text.isDigit] at h

/-- A text that starts with a digit is a number. -/
lemma valueAt?_digit (h : Text.isDigit c = true) (cs : List Char) :
    valueAt? (c :: cs) = (integer? false ((c :: cs).takeWhile isNumberChar)).map fun v =>
      (v, (c :: cs).dropWhile isNumberChar) := by
  obtain ⟨-, hsigns⟩ := of_isDigit h
  simp only [List.mem_cons, List.not_mem_nil, or_false, not_or] at hsigns
  rw [valueAt?_cons, List.takeWhile_cons_of_pos (isNumberChar_of_isDigit h),
    List.dropWhile_cons_of_pos (isNumberChar_of_isDigit h)]
  simp [hsigns, h]

/-- An integer is read from its literal, up to what stands behind it. -/
lemma valueAt?_intChars (n : Int64) (h : Closes rest) :
    valueAt? (Decimal.intChars n.toInt ++ rest) = some (.int n, rest) := by
  rcases lt_or_ge n.toInt 0 with hneg | hpos
  · have hvalue := integer?_toDigits true (-n.toInt).toNat (n := n)
      (by rw [if_pos rfl]; omega)
    obtain ⟨htake, hdrop⟩ := takeWhile_toDigits (-n.toInt).toNat h
    obtain ⟨d, ds, hdigits, hdigit⟩ := exists_toDigits (-n.toInt).toNat
    have hskip : skipBlanks (Nat.toDigits 10 (-n.toInt).toNat ++ rest) =
        Nat.toDigits 10 (-n.toInt).toNat ++ rest := by
      rw [hdigits, List.cons_append, skipBlanks_cons (of_isDigit hdigit).1]
    rw [Script.intChars_of_neg hneg, List.append_assoc, List.singleton_append, valueAt?_cons,
      hskip, htake, hdrop, hvalue]
    simp
  · have hvalue := integer?_toDigits false n.toInt.toNat (n := n)
      (by rw [if_neg (by simp)]; omega)
    obtain ⟨htake, hdrop⟩ := takeWhile_toDigits n.toInt.toNat h
    obtain ⟨d, ds, hdigits, hdigit⟩ := exists_toDigits n.toInt.toNat
    rw [hdigits] at htake hdrop hvalue
    rw [Script.intChars_of_nonneg hpos, hdigits, List.cons_append, valueAt?_digit hdigit]
    rw [List.cons_append] at htake hdrop
    rw [htake, hdrop, hvalue, Option.map_some]

/-! ## Values -/

/-- A literal starts neither with a blank nor with a closing bracket or brace. -/
lemma exists_literalChars (v : Value) (hv : v.isFloatFree = true) :
    ∃ c cs, literalChars v = c :: cs ∧ isBlank c = false ∧ c ≠ ']' ∧ c ≠ '\x7d' := by
  cases v with
  | null => exact ⟨'N', _, rfl, by decide, by decide, by decide⟩
  | bool b => cases b with
    | true => exact ⟨'T', _, rfl, by decide, by decide, by decide⟩
    | false => exact ⟨'F', _, rfl, by decide, by decide, by decide⟩
  | int n =>
    rw [literalChars]
    rcases lt_or_ge n.toInt 0 with hneg | hpos
    · exact ⟨'-', _, Script.intChars_of_neg hneg, by decide, by decide, by decide⟩
    · obtain ⟨d, ds, hdigits, hdigit⟩ := exists_toDigits n.toInt.toNat
      obtain ⟨hblank, hsigns⟩ := of_isDigit hdigit
      simp only [List.mem_cons, List.not_mem_nil, or_false, not_or] at hsigns
      exact ⟨d, ds, (Script.intChars_of_nonneg hpos).trans hdigits, hblank, hsigns.2.2.2.1,
        hsigns.2.2.2.2.2.1⟩
  | float x => simp [Value.isFloatFree] at hv
  | text s =>
    have hquote := quoteFor_eq s.toList
    refine ⟨quoteFor s.toList, _, rfl, ?_⟩
    rcases hquote with hquote | hquote <;> rw [hquote] <;> decide
  | list items => exact ⟨'[', _, rfl, by decide, by decide, by decide⟩
  | map fields => exact ⟨'\x7b', _, rfl, by decide, by decide, by decide⟩

/-- One item of a list, and what comes behind it. -/
lemma itemsAt?_item {v : Value} {w more : List Char} (hw : w = literalChars v ++ more)
    (hv : v.isFloatFree = true) (hread : valueAt? w = some (v, more)) :
    itemsAt? w = match signAt? ']' more with
      | some after => some ([v], after)
      | none => (signAt? ',' more).bind fun next =>
        (itemsAt? next).map fun r => (v :: r.1, r.2) := by
  obtain ⟨c, cs, hchars, hblank, hclose, -⟩ := exists_literalChars v hv
  rw [hchars, List.cons_append] at hw
  rw [itemsAt?_eq, hw, signAt?_cons hblank, if_neg hclose, skipBlanks_cons hblank, ← hw, hread]
  rfl

/-- One key of a dictionary with its value, and what comes behind them. -/
lemma fieldsAt?_field {key : String} {v : Value} {more : List Char}
    (hv : v.isFloatFree = true)
    (hread : valueAt? (literalChars v ++ more) = some (v, more)) :
    fieldsAt? (textChars key ++ ':' :: ' ' :: (literalChars v ++ more)) =
      match signAt? '\x7d' more with
      | some after => some ([(key, v)], after)
      | none => (signAt? ',' more).bind fun next =>
        (fieldsAt? next).map fun r => ((key, v) :: r.1, r.2) := by
  have hkey := valueAt?_textChars key
    (closes_cons (c := ':') (by decide) (' ' :: (literalChars v ++ more)))
  have hskip : skipBlanks (textChars key ++ ':' :: ' ' :: (literalChars v ++ more)) =
      textChars key ++ ':' :: ' ' :: (literalChars v ++ more) := by
    obtain ⟨c, cs, hchars, hblank, -⟩ := exists_literalChars (.text key) rfl
    rw [literalChars] at hchars
    rw [hchars, List.cons_append, skipBlanks_cons hblank]
  have hclose : signAt? '\x7d' (textChars key ++ ':' :: ' ' :: (literalChars v ++ more)) =
      none := by
    obtain ⟨c, cs, hchars, hblank, -, hne⟩ := exists_literalChars (.text key) rfl
    rw [literalChars] at hchars
    rw [hchars, List.cons_append, signAt?_cons hblank, if_neg hne]
  have hvalue : skipBlanks (' ' :: (literalChars v ++ more)) = literalChars v ++ more := by
    obtain ⟨c, cs, hchars, hblank, -⟩ := exists_literalChars v hv
    rw [skipBlanks_space, hchars, List.cons_append, skipBlanks_cons hblank]
  rw [fieldsAt?_eq, hclose, hskip, hkey]
  change ((signAt? ':' (':' :: ' ' :: (literalChars v ++ more))).bind _) = _
  rw [signAt?_cons (by decide), if_pos rfl]
  change ((valueAt? (skipBlanks (' ' :: (literalChars v ++ more)))).bind _) = _
  rw [hvalue, hread]
  rfl

mutual

/-- **A literal is read up to what stands behind it**, which is the end or a sign that closes a
literal. -/
theorem valueAt?_literalChars : ∀ v : Value, v.isFloatFree = true → ∀ rest, Closes rest →
    valueAt? (literalChars v ++ rest) = some (v, rest)
  | .null, _, _, hrest => valueAt?_name (by decide) (by decide) rfl hrest
  | .bool true, _, _, hrest => valueAt?_name (by decide) (by decide) rfl hrest
  | .bool false, _, _, hrest => valueAt?_name (by decide) (by decide) rfl hrest
  | .int n, _, _, hrest => valueAt?_intChars n hrest
  | .float x, hx, _, _ => by simp [Value.isFloatFree] at hx
  | .text s, _, _, hrest => valueAt?_textChars s hrest
  | .list items, hitems, rest, _ => by
    have hread := itemsAt?_literalItems items hitems rest
    rw [literalChars, List.cons_append, List.cons_append, List.append_assoc, List.singleton_append,
      valueAt?_cons, hread]
    simp
  | .map fields, hfields, rest, _ => by
    have hread := fieldsAt?_literalFields fields hfields rest
    rw [literalChars, List.cons_append, List.cons_append, List.append_assoc, List.singleton_append,
      valueAt?_cons, hread]
    simp [Dict.ofList_toList]

/-- The items of a list are read up to its closing bracket. -/
theorem itemsAt?_literalItems : ∀ items : List Value, Value.areFloatFree items = true →
    ∀ rest, itemsAt? (literalItems items ++ ']' :: rest) = some (items, rest)
  | [], _, rest => by
    rw [literalItems, List.nil_append, itemsAt?_eq, signAt?_cons (by decide)]
    rfl
  | [v], hitems, rest => by
    rw [Value.areFloatFree, Bool.and_eq_true] at hitems
    have hread := valueAt?_literalChars v hitems.1 (']' :: rest) (closes_cons (by decide) rest)
    rw [literalItems, itemsAt?_item rfl hitems.1 hread, signAt?_cons (by decide)]
    rfl
  | v :: v' :: items, hitems, rest => by
    rw [Value.areFloatFree, Bool.and_eq_true] at hitems
    have hmore := itemsAt?_literalItems (v' :: items) hitems.2 rest
    have hread := valueAt?_literalChars v hitems.1
      (',' :: ' ' :: (literalItems (v' :: items) ++ ']' :: rest)) (closes_cons (by decide) _)
    rw [literalItems, List.append_assoc, List.cons_append, List.cons_append,
      itemsAt?_item rfl hitems.1 hread, signAt?_cons (by decide), if_neg (by decide),
      signAt?_cons (by decide), if_pos rfl]
    · simp only [Option.bind_some, itemsAt?_space, hmore, Option.map_some]
    · simp

/-- The keys and values of a dictionary are read up to its closing brace. -/
theorem fieldsAt?_literalFields {low : Option String} : ∀ fields : Entries Value low,
    Value.fieldsFloatFree fields = true →
    ∀ rest, fieldsAt? (literalFields fields ++ '\x7d' :: rest) = some (fields.toList, rest)
  | .nil, _, rest => by
    rw [literalFields, List.nil_append, fieldsAt?_eq, signAt?_cons (by decide)]
    rfl
  | .cons key v _ .nil, hfields, rest => by
    rw [Value.fieldsFloatFree, Bool.and_eq_true] at hfields
    have hread := valueAt?_literalChars v hfields.1 ('\x7d' :: rest)
      (closes_cons (by decide) rest)
    rw [literalFields, List.append_assoc, List.cons_append, List.cons_append,
      fieldsAt?_field hfields.1 hread, signAt?_cons (by decide)]
    rfl
  | .cons key v _ (.cons key' v' above fields), hfields, rest => by
    rw [Value.fieldsFloatFree, Bool.and_eq_true] at hfields
    have hmore := fieldsAt?_literalFields (.cons key' v' above fields) hfields.2 rest
    have hread := valueAt?_literalChars v hfields.1
      (',' :: ' ' :: (literalFields (.cons key' v' above fields) ++ '\x7d' :: rest))
      (closes_cons (by decide) _)
    rw [literalFields]
    · simp only [List.append_assoc, List.cons_append]
      rw [fieldsAt?_field hfields.1 hread, signAt?_cons (by decide), if_neg (by decide),
        signAt?_cons (by decide), if_pos rfl]
      simp only [Option.bind_some, fieldsAt?_space, hmore, Option.map_some]
      rfl
    · simp

end

/-! ## Control characters -/

/-- Whether a character is no control character of ASCII. -/
def IsPrinted (c : Char) : Prop := 32 ≤ c.toNat ∧ c.toNat ≠ 127

instance : DecidablePred IsPrinted := fun c =>
  inferInstanceAs (Decidable (32 ≤ c.toNat ∧ c.toNat ≠ 127))

lemma isPrinted_of_all {w : List Char} (h : (w.all fun c => decide (IsPrinted c)) = true) :
    ∀ c ∈ w, IsPrinted c := fun c hc => of_decide_eq_true (List.all_eq_true.1 h c hc)

lemma isPrinted_digitChar : ∀ n < 16, IsPrinted (Nat.digitChar n) := by decide

lemma isPrinted_escapeChar (hquote : quote = '"' ∨ quote = '\'') (d : Char) :
    ∀ c ∈ escapeChar quote d, IsPrinted c := by
  unfold escapeChar
  split
  iterate 4 exact isPrinted_of_all (by decide)
  split_ifs with hd hcode
  · subst hd
    rcases hquote with rfl | rfl <;> exact isPrinted_of_all (by decide)
  · have hlt : d.toNat < 128 := by
      simp only [Bool.or_eq_true, decide_eq_true_eq] at hcode
      omega
    have hhigh := isPrinted_digitChar (d.toNat / 16) (by omega)
    have hlow := isPrinted_digitChar (d.toNat % 16) (by omega)
    simp only [List.mem_cons, List.not_mem_nil, or_false]
    rintro c (rfl | rfl | rfl | rfl)
    · decide
    · decide
    · exact hhigh
    · exact hlow
  · simp only [Bool.or_eq_true, decide_eq_true_eq, not_or] at hcode
    intro c hc
    obtain rfl := List.mem_singleton.1 hc
    exact ⟨by omega, hcode.2⟩

section Parts

variable {w u : List Char}

/-- What stands between two signs. -/
lemma isPrinted_between {first last : Char} (hfirst : IsPrinted first) (hlast : IsPrinted last)
    (hw : ∀ c ∈ w, IsPrinted c) : ∀ c ∈ first :: w ++ [last], IsPrinted c :=
  List.forall_mem_append.2
    ⟨List.forall_mem_cons.2 ⟨hfirst, hw⟩, List.forall_mem_singleton.2 hlast⟩

/-- Two parts with a sign and a space between them. -/
lemma isPrinted_separated {sign : Char} (hsign : IsPrinted sign) (hw : ∀ c ∈ w, IsPrinted c)
    (hu : ∀ c ∈ u, IsPrinted c) : ∀ c ∈ w ++ sign :: ' ' :: u, IsPrinted c :=
  List.forall_mem_append.2
    ⟨hw, List.forall_mem_cons.2 ⟨hsign, List.forall_mem_cons.2 ⟨by decide, hu⟩⟩⟩

end Parts

lemma isPrinted_textChars (s : String) : ∀ c ∈ textChars s, IsPrinted c := by
  have hquote := quoteFor_eq s.toList
  have hprinted : IsPrinted (quoteFor s.toList) := by
    rcases hquote with h | h <;> rw [h] <;> decide
  refine isPrinted_between hprinted hprinted fun c hc => ?_
  obtain ⟨d, -, hd⟩ := List.mem_flatMap.1 hc
  exact isPrinted_escapeChar hquote d c hd

lemma isPrinted_intChars (n : ℤ) : ∀ c ∈ Decimal.intChars n, IsPrinted c := by
  have hdigit (m : ℕ) : ∀ c ∈ Nat.toDigits 10 m, IsPrinted c := by
    intro c hc
    have hdigit := Json.isDigit_of_mem_toDigits hc
    simp only [Text.isDigit, Bool.and_eq_true, decide_eq_true_eq, Char.le_def] at hdigit
    have hlow : '0'.toNat ≤ c.toNat := hdigit.1
    have hhigh : c.toNat ≤ '9'.toNat := hdigit.2
    have hzero : '0'.toNat = 48 := rfl
    have hnine : '9'.toNat = 57 := rfl
    exact ⟨by omega, by omega⟩
  intro c hc
  rcases lt_or_ge n 0 with hneg | hpos
  · rw [Script.intChars_of_neg hneg, List.singleton_append, List.mem_cons] at hc
    rcases hc with rfl | hc
    · decide
    · exact hdigit _ c hc
  · rw [Script.intChars_of_nonneg hpos] at hc
    exact hdigit _ c hc

mutual

/-- No control character of ASCII is in a literal. -/
theorem isPrinted_literalChars : ∀ v : Value, v.isFloatFree = true →
    ∀ c ∈ literalChars v, IsPrinted c
  | .null, _ => isPrinted_of_all (by decide)
  | .bool true, _ => isPrinted_of_all (by decide)
  | .bool false, _ => isPrinted_of_all (by decide)
  | .int n, _ => isPrinted_intChars n.toInt
  | .float x, hx => by simp [Value.isFloatFree] at hx
  | .text s, _ => isPrinted_textChars s
  | .list items, hitems =>
    isPrinted_between (by decide) (by decide) (isPrinted_literalItems items hitems)
  | .map fields, hfields =>
    isPrinted_between (by decide) (by decide) (isPrinted_literalFields fields hfields)

theorem isPrinted_literalItems : ∀ items : List Value, Value.areFloatFree items = true →
    ∀ c ∈ literalItems items, IsPrinted c
  | [], _ => by simp [literalItems]
  | [v], hitems => by
    rw [Value.areFloatFree, Bool.and_eq_true] at hitems
    exact isPrinted_literalChars v hitems.1
  | v :: v' :: items, hitems => by
    rw [Value.areFloatFree, Bool.and_eq_true] at hitems
    rw [literalItems]
    · exact isPrinted_separated (by decide) (isPrinted_literalChars v hitems.1)
        (isPrinted_literalItems (v' :: items) hitems.2)
    · simp

theorem isPrinted_literalFields {low : Option String} : ∀ fields : Entries Value low,
    Value.fieldsFloatFree fields = true → ∀ c ∈ literalFields fields, IsPrinted c
  | .nil, _ => by simp [literalFields]
  | .cons key v _ .nil, hfields => by
    rw [Value.fieldsFloatFree, Bool.and_eq_true] at hfields
    exact isPrinted_separated (by decide) (isPrinted_textChars key)
      (isPrinted_literalChars v hfields.1)
  | .cons key v _ (.cons key' v' above fields), hfields => by
    rw [Value.fieldsFloatFree, Bool.and_eq_true] at hfields
    have hfirst := isPrinted_separated (show IsPrinted ':' by decide) (isPrinted_textChars key)
      (isPrinted_literalChars v hfields.1)
    rw [literalFields]
    · exact isPrinted_separated (by decide) hfirst
        (isPrinted_literalFields (.cons key' v' above fields) hfields.2)
    · simp

end

/-! ## Literals -/

/-- **The literal of a value without doubles is read back as that value**, all of it, and there
is no control character of ASCII in it: so that no other value without doubles has the same
literal. -/
theorem literal_read_back {v : Value} (h : v.isFloatFree = true) :
    (∀ c ∈ (literal v).toList, IsPrinted c) ∧ Python.read? (literal v) = some v ∧
      ∀ w : Value, w.isFloatFree = true → literal w = literal v → w = v := by
  have hread : ∀ w : Value, w.isFloatFree = true → Python.read? (literal w) = some w := by
    intro w hw
    have hvalue := valueAt?_literalChars w hw [] (by simp [Closes])
    rw [List.append_nil] at hvalue
    rw [read?_eq_some_iff, literal, String.toList_ofList, hvalue]
  refine ⟨?_, hread v h, fun w hw heq => ?_⟩
  · rw [literal, String.toList_ofList]
    exact isPrinted_literalChars v h
  · have hsame := hread w hw
    rw [heq, hread v h] at hsame
    exact (Option.some.inj hsame).symm

/-- The literal of a mapping with the least integer, both quotes, backslashes and control
characters in it. -/
theorem literal_read_back_nested :
    let v : Value := .map (Dict.ofList [
      ("it's", .list [.int Int64.minValue, .text "\x00\x1f\x7f\n", .bool true, .null]),
      ("\"'\\", Value.map Dict.empty)])
    v.isFloatFree = true ∧
      literal v = "\x7b'\"\\'\\\\': \x7b\x7d, \"it's\": [-9223372036854775808, " ++
        "'\\x00\\x1f\\x7f\\n', True, None]\x7d" ∧
      Python.read? (literal v) = some v := by
  intro v
  have hfree : v.isFloatFree = true := by decide
  exact ⟨hfree, by decide, (literal_read_back hfree).2.1⟩

end Program

end Dataflow

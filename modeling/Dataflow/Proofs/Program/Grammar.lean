import Mathlib.Data.Int.Notation
import Mathlib.Data.List.Basic
import Mathlib.Order.Nat
import Mathlib.Tactic.SplitIfs
import Dataflow.Json.Reader
import Dataflow.Value.Json

/-!
# The grammar of literals in Python

The literals of values that Python reads, doubles apart: the words `None`, `True` and `False`,
decimal integers, texts between quotes with escapes in them, lists, and dictionaries whose keys
are texts.  Words and numbers are as long as they can be.  Blanks may stand between the parts of
a list or of a dictionary, and a comma behind the last part.  `Python.read?` wants the whole text
to be one literal; `Python.valueAt?` returns what stands behind it.
-/

namespace Dataflow

namespace Python

open Json (Rest length_dropWhile_le)

/-- The characters that may stand between the parts of a list or of a dictionary. -/
def isBlank (c : Char) : Bool := c == ' ' || c == '\t' || c == '\x0c' || c == '\n' || c == '\r'

/-- The text without leading blanks. -/
def skipBlanks (cs : List Char) : List Char := cs.dropWhile isBlank

/-- The characters that go on with a name. -/
def isNameChar (c : Char) : Bool := c.isAlphanum || c == '_' || 128 ≤ c.toNat

/-- The characters that go on with a number. -/
def isNumberChar (c : Char) : Bool := isNameChar c || c == '.'

/-- The value of a name. -/
def constant? (name : List Char) : Option Value :=
  if name = "None".toList then some .null
  else if name = "True".toList then some (.bool true)
  else if name = "False".toList then some (.bool false)
  else none

/-- Whether a number is a decimal integer.  One that starts with a zero has only zeros. -/
def isInteger (number : List Char) : Bool :=
  !number.isEmpty && number.all Text.isDigit &&
    (number.head? != some '0' || number.all (· == '0'))

/-- The value of a number behind its sign, if it is an integer of 64 bits. -/
def integer? (negative : Bool) (number : List Char) : Option Value :=
  let magnitude : ℤ := Decimal.digitsValue number
  let n := if negative then -magnitude else magnitude
  if isInteger number && Value.fitsInt n then some (.int (.ofInt n)) else none

/-- The character of an escape of one character behind the backslash. -/
def escaped? : Char → Option Char
  | '\\' => some '\\'
  | '\'' => some '\''
  | '"' => some '"'
  | 'n' => some '\n'
  | 'r' => some '\r'
  | 't' => some '\t'
  | _ => none

/-- The characters that no text has in it unless they are escaped. -/
def breaksText (c : Char) : Bool := c == '\n' || c == '\r' || c == '\x00'

/-- The characters up to the closing quote, and what follows it. -/
def scanText (quote : Char) : List Char → Option (List Char × List Char)
  | [] => none
  | '\\' :: 'x' :: high :: low :: rest =>
    match Json.hexValue? high, Json.hexValue? low, scanText quote rest with
    | some h, some l, some (s, after) => some (Char.ofNat (16 * h + l) :: s, after)
    | _, _, _ => none
  | '\\' :: e :: rest =>
    match escaped? e, scanText quote rest with
    | some c, some (s, after) => some (c :: s, after)
    | _, _ => none
  | c :: rest =>
    if c = quote then some ([], rest)
    else if c = '\\' || breaksText c then none
    else (scanText quote rest).map fun r => (c :: r.1, r.2)

/-- Whether two more quotes follow one, which then starts a text of several lines. -/
def isLong (quote : Char) : List Char → Bool
  | c :: d :: _ => c == quote && d == quote
  | _ => false

theorem length_skipBlanks_le (cs : List Char) : (skipBlanks cs).length ≤ cs.length :=
  length_dropWhile_le isBlank cs

theorem length_scanText {quote : Char} {cs s rest : List Char}
    (h : scanText quote cs = some (s, rest)) : rest.length < cs.length := by
  fun_induction scanText quote cs generalizing s rest with
  | case1 => simp at h
  | case2 high low r _ _ s' after hr _ _ ih =>
    simp only [Option.some.injEq, Prod.mk.injEq] at h
    have := ih hr
    simp only [← h.2, List.length_cons]
    omega
  | case3 => simp at h
  | case4 e r _ c s' after hr _ ih =>
    simp only [Option.some.injEq, Prod.mk.injEq] at h
    have := ih hr
    simp only [← h.2, List.length_cons]
    omega
  | case5 => simp at h
  | case6 => simp_all
  | case7 => simp at h
  | case8 c r _ _ _ _ ih =>
    simp only [Option.map_eq_some_iff, Prod.exists, Prod.mk.injEq] at h
    obtain ⟨s', r', hr, _, rfl⟩ := h
    have := ih hr
    simp only [List.length_cons]
    omega

/-- What follows a sign, if it is the next one. -/
def scanSign (sign : Char) (cs : List Char) : Option (Rest cs) :=
  match h : skipBlanks cs with
  | c :: rest =>
    if c = sign then
      some ⟨rest, by have := length_skipBlanks_le cs; simp only [h, List.length_cons] at this; omega⟩
    else none
  | [] => none

mutual

/-- A value at the start of a text. -/
def scanValue (cs : List Char) : Option (Value × Rest cs) :=
  match cs with
  | [] => none
  | c :: rest =>
    if c = '\'' || c = '"' then
      if isLong c rest then none
      else
        match h : scanText c rest with
        | none => none
        | some (s, after) =>
          some (.text (String.ofList s), ⟨after, Nat.lt_succ_of_lt (length_scanText h)⟩)
    else if c = '[' then
      (scanItems rest).map fun r => (.list r.1, ⟨r.2.1, Nat.lt_succ_of_lt r.2.2⟩)
    else if c = '\x7b' then
      (scanFields rest).map fun r =>
        (.map (Dict.ofList r.1), ⟨r.2.1, Nat.lt_succ_of_lt r.2.2⟩)
    else if c = '-' then
      (integer? true ((skipBlanks rest).takeWhile isNumberChar)).map fun v =>
        (v, ⟨(skipBlanks rest).dropWhile isNumberChar, Nat.lt_succ_of_le
          ((length_dropWhile_le _ _).trans (length_skipBlanks_le rest))⟩)
    else if Text.isDigit c then
      (integer? false (c :: rest.takeWhile isNumberChar)).map fun v =>
        (v, ⟨rest.dropWhile isNumberChar, Nat.lt_succ_of_le (length_dropWhile_le _ _)⟩)
    else
      (constant? (c :: rest.takeWhile isNameChar)).map fun v =>
        (v, ⟨rest.dropWhile isNameChar, Nat.lt_succ_of_le (length_dropWhile_le _ _)⟩)
termination_by 2 * cs.length
decreasing_by all_goals (simp only [List.length_cons]; omega)

/-- The items of a list up to its closing bracket.  A comma may follow the last one. -/
def scanItems (cs : List Char) : Option (List Value × Rest cs) :=
  match scanSign ']' cs with
  | some after => some ([], after)
  | none =>
    match scanValue (skipBlanks cs) with
    | none => none
    | some (v, ⟨rest, hrest⟩) =>
      have hle := Nat.lt_of_lt_of_le hrest (length_skipBlanks_le cs)
      match scanSign ']' rest with
      | some ⟨after, hafter⟩ => some ([v], ⟨after, hafter.trans hle⟩)
      | none =>
        match scanSign ',' rest with
        | none => none
        | some ⟨more, hmore⟩ => (scanItems more).map fun r =>
          (v :: r.1, ⟨r.2.1, r.2.2.trans (hmore.trans hle)⟩)
termination_by 2 * cs.length + 1
decreasing_by
  · have := length_skipBlanks_le cs
    omega
  · have := hmore.trans hle
    omega

/-- The keys and values of a dictionary up to its closing brace.  A comma may follow the last
one. -/
def scanFields (cs : List Char) : Option (List (String × Value) × Rest cs) :=
  match scanSign '\x7d' cs with
  | some after => some ([], after)
  | none =>
    match scanValue (skipBlanks cs) with
    | some (.text key, ⟨afterKey, hkey⟩) =>
      match scanSign ':' afterKey with
      | none => none
      | some ⟨value, hvalue⟩ =>
        have hle := hvalue.trans (Nat.lt_of_lt_of_le hkey (length_skipBlanks_le cs))
        match scanValue (skipBlanks value) with
        | none => none
        | some (v, ⟨rest, hrest⟩) =>
          have hle := (Nat.lt_of_lt_of_le hrest (length_skipBlanks_le value)).trans hle
          match scanSign '\x7d' rest with
          | some ⟨after, hafter⟩ => some ([(key, v)], ⟨after, hafter.trans hle⟩)
          | none =>
            match scanSign ',' rest with
            | none => none
            | some ⟨more, hmore⟩ => (scanFields more).map fun r =>
              ((key, v) :: r.1, ⟨r.2.1, r.2.2.trans (hmore.trans hle)⟩)
    | _ => none
termination_by 2 * cs.length + 1
decreasing_by
  · have := length_skipBlanks_le cs
    omega
  · have := length_skipBlanks_le value
    omega
  · have := hmore.trans hle
    omega

end

/-- The value of a text, all of which is its literal. -/
def read? (text : String) : Option Value :=
  match scanValue text.toList with
  | some (v, ⟨[], _⟩) => some v
  | _ => none

/-! ## The reader without the lengths

Here the rests are plain texts, and each function has one equation. -/

/-- What follows a sign, if it is the next one. -/
def signAt? (sign : Char) (cs : List Char) : Option (List Char) :=
  (scanSign sign cs).map Subtype.val

/-- A value at the start of a text, and what follows it. -/
def valueAt? (cs : List Char) : Option (Value × List Char) :=
  (scanValue cs).map fun r => (r.1, r.2.1)

/-- The items of a list, and what follows them. -/
def itemsAt? (cs : List Char) : Option (List Value × List Char) :=
  (scanItems cs).map fun r => (r.1, r.2.1)

/-- The keys and values of a dictionary, and what follows them. -/
def fieldsAt? (cs : List Char) : Option (List (String × Value) × List Char) :=
  (scanFields cs).map fun r => (r.1, r.2.1)

variable {c sign : Char} {cs rest : List Char}

lemma read?_eq_some_iff {text : String} {v : Value} :
    read? text = some v ↔ valueAt? text.toList = some (v, []) := by
  rw [read?, valueAt?]
  rcases scanValue text.toList with _ | ⟨w, ⟨_ | ⟨c, rest⟩, hrest⟩⟩ <;> simp

lemma skipBlanks_cons (h : isBlank c = false) : skipBlanks (c :: cs) = c :: cs := by
  simp [skipBlanks, h]

lemma signAt?_eq (sign : Char) (cs : List Char) : signAt? sign cs =
    match skipBlanks cs with
    | c :: rest => if c = sign then some rest else none
    | [] => none := by
  rw [signAt?, scanSign]
  split
  · rename_i h
    simp only [h]
    split_ifs <;> rfl
  · rename_i h
    simp only [h, Option.map_none]

lemma signAt?_cons (h : isBlank c = false) :
    signAt? sign (c :: cs) = if c = sign then some cs else none := by
  rw [signAt?_eq, skipBlanks_cons h]

lemma valueAt?_cons (c : Char) (cs : List Char) : valueAt? (c :: cs) =
    if c = '\'' || c = '"' then
      if isLong c cs then none
      else (scanText c cs).map fun r => (.text (String.ofList r.1), r.2)
    else if c = '[' then (itemsAt? cs).map fun r => (.list r.1, r.2)
    else if c = '\x7b' then (fieldsAt? cs).map fun r => (.map (Dict.ofList r.1), r.2)
    else if c = '-' then
      (integer? true ((skipBlanks cs).takeWhile isNumberChar)).map fun v =>
        (v, (skipBlanks cs).dropWhile isNumberChar)
    else if Text.isDigit c then
      (integer? false (c :: cs.takeWhile isNumberChar)).map fun v =>
        (v, cs.dropWhile isNumberChar)
    else
      (constant? (c :: cs.takeWhile isNameChar)).map fun v => (v, cs.dropWhile isNameChar) := by
  rw [valueAt?, scanValue, itemsAt?, fieldsAt?]
  split_ifs
  · rfl
  · split <;> simp_all
  all_goals simp only [Option.map_map, Function.comp_def]

lemma itemsAt?_eq (cs : List Char) : itemsAt? cs =
    match signAt? ']' cs with
    | some after => some ([], after)
    | none =>
      (valueAt? (skipBlanks cs)).bind fun (v, rest) =>
        match signAt? ']' rest with
        | some after => some ([v], after)
        | none => (signAt? ',' rest).bind fun more =>
          (itemsAt? more).map fun r => (v :: r.1, r.2) := by
  rw [itemsAt?, scanItems, signAt?, valueAt?]
  cases scanSign ']' cs with
  | some after => rfl
  | none =>
    rcases scanValue (skipBlanks cs) with _ | ⟨v, rest, hrest⟩
    · rfl
    · simp only [signAt?, Option.map_none, Option.map_some, Option.bind_some]
      cases scanSign ']' rest with
      | some after => rfl
      | none =>
        cases scanSign ',' rest with
        | none => rfl
        | some more => simp [itemsAt?, Function.comp_def]

lemma fieldsAt?_eq (cs : List Char) : fieldsAt? cs =
    match signAt? '\x7d' cs with
    | some after => some ([], after)
    | none =>
      match valueAt? (skipBlanks cs) with
      | some (.text key, afterKey) => (signAt? ':' afterKey).bind fun value =>
        (valueAt? (skipBlanks value)).bind fun (v, rest) =>
          match signAt? '\x7d' rest with
          | some after => some ([(key, v)], after)
          | none => (signAt? ',' rest).bind fun more =>
            (fieldsAt? more).map fun r => ((key, v) :: r.1, r.2)
      | _ => none := by
  rw [fieldsAt?, scanFields, signAt?, valueAt?]
  cases scanSign '\x7d' cs with
  | some after => rfl
  | none =>
    rcases scanValue (skipBlanks cs) with _ | ⟨v, afterKey, hkey⟩
    · rfl
    · cases v with
      | text key =>
        simp only [signAt?, valueAt?, Option.map_none, Option.map_some]
        cases scanSign ':' afterKey with
        | none => rfl
        | some value =>
          rcases hv : scanValue (skipBlanks value.1) with _ | ⟨v, rest, hrest⟩
          · simp [hv]
          · simp only [hv, Option.map_some, Option.bind_some]
            cases scanSign '\x7d' rest with
            | some after => rfl
            | none =>
              cases scanSign ',' rest with
              | none => rfl
              | some more => simp [fieldsAt?, Function.comp_def]
      | _ => rfl

/-! ### Blanks -/

lemma skipBlanks_space (cs : List Char) : skipBlanks (' ' :: cs) = skipBlanks cs := by
  simp [skipBlanks, isBlank]

lemma signAt?_space (sign : Char) (cs : List Char) :
    signAt? sign (' ' :: cs) = signAt? sign cs := by
  rw [signAt?_eq, signAt?_eq, skipBlanks_space]

lemma itemsAt?_space (cs : List Char) : itemsAt? (' ' :: cs) = itemsAt? cs := by
  rw [itemsAt?_eq, itemsAt?_eq, signAt?_space, skipBlanks_space]

lemma fieldsAt?_space (cs : List Char) : fieldsAt? (' ' :: cs) = fieldsAt? cs := by
  rw [fieldsAt?_eq, fieldsAt?_eq, signAt?_space, skipBlanks_space]

end Python

end Dataflow

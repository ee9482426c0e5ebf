import Dataflow.Json.Basic
import Dataflow.Text.Classes

/-!
# Reading JSON

A recursive descent over the characters.  Each function returns what it read together with
the rest of the text, which is shorter than what it was given; that is what makes the descent
end.  `scan?` follows the grammar and leaves undenoting parts in place as `malformed`, for
readers that skip some parts of a text; `parse?` wants all of it.
-/

namespace Dataflow.Json

/-- The rest of a text after something that took at least one character. -/
abbrev Rest (cs : List Char) : Type := { r : List Char // r.length < cs.length }

/-- The characters that may stand between the parts of a JSON text. -/
def isSpace (c : Char) : Bool := c == ' ' || c == '\n' || c == '\t' || c == '\r'

/-- The text without leading space. -/
def skipSpace (cs : List Char) : List Char := cs.dropWhile isSpace

theorem length_dropWhile_le {α : Type} (p : α → Bool) (l : List α) :
    (l.dropWhile p).length ≤ l.length :=
  (List.dropWhile_sublist p).length_le

theorem length_skipSpace_le (cs : List Char) : (skipSpace cs).length ≤ cs.length :=
  length_dropWhile_le isSpace cs

/-! ## Texts -/

/-- A piece of a text: a character, or the unit of 16 bits that an escape names. -/
inductive Piece where
  | char (c : Char)
  | unit (n : Nat)

/-- The value of a hexadecimal digit. -/
def hexValue? (c : Char) : Option Nat :=
  if '0' ≤ c && c ≤ '9' then some (c.toNat - '0'.toNat)
  else if 'a' ≤ c && c ≤ 'f' then some (c.toNat - 'a'.toNat + 10)
  else if 'A' ≤ c && c ≤ 'F' then some (c.toNat - 'A'.toNat + 10)
  else none

/-- The value of four hexadecimal digits. -/
def hexUnit? (a b c d : Char) : Option Nat := do
  return (((← hexValue? a) * 16 + (← hexValue? b)) * 16 + (← hexValue? c)) * 16 + (← hexValue? d)

/-- The character of a short escape. -/
def shortEscape? : Char → Option Char
  | '"' => some '"'
  | '\\' => some '\\'
  | '/' => some '/'
  | 'b' => some '\x08'
  | 'f' => some '\x0c'
  | 'n' => some '\n'
  | 'r' => some '\r'
  | 't' => some '\t'
  | _ => none

/-- The pieces of a text up to its closing quote, and what follows the quote. -/
def scanText : List Char → Option (List Piece × List Char)
  | [] => none
  | '"' :: rest => some ([], rest)
  | '\\' :: 'u' :: a :: b :: c :: d :: rest =>
    match hexUnit? a b c d, scanText rest with
    | some n, some (pieces, rest) => some (.unit n :: pieces, rest)
    | _, _ => none
  | '\\' :: e :: rest =>
    match shortEscape? e, scanText rest with
    | some c, some (pieces, rest) => some (.char c :: pieces, rest)
    | _, _ => none
  | c :: rest =>
    if c.toNat < 32 || c == '\\' then none
    else (scanText rest).map fun (pieces, rest) => (.char c :: pieces, rest)

theorem length_scanText {cs : List Char} {pieces : List Piece} {rest : List Char}
    (h : scanText cs = some (pieces, rest)) : rest.length < cs.length := by
  fun_induction scanText cs generalizing pieces rest with
  | case1 => simp at h
  | case2 r => simp_all
  | case3 a b c d r n ps r' hr _ ih =>
    simp only [Option.some.injEq, Prod.mk.injEq] at h
    have := ih hr
    simp only [← h.2, List.length_cons]
    omega
  | case4 => simp at h
  | case5 e r _ c ps r' hr _ ih =>
    simp only [Option.some.injEq, Prod.mk.injEq] at h
    have := ih hr
    simp only [← h.2, List.length_cons]
    omega
  | case6 => simp at h
  | case7 => simp at h
  | case8 c r _ _ _ _ ih =>
    simp only [Option.map_eq_some_iff, Prod.exists, Prod.mk.injEq] at h
    obtain ⟨ps, r', hr, _, rfl⟩ := h
    have := ih hr
    simp only [List.length_cons]
    omega

/-- The characters of a list of pieces.  The two halves of a surrogate pair make one character,
and a half alone makes none. -/
def assemble : List Piece → Option (List Char)
  | [] => some []
  | .char c :: rest => (assemble rest).map (c :: ·)
  | .unit high :: .unit low :: rest =>
    if 0xD800 ≤ high && high < 0xDC00 then
      if 0xDC00 ≤ low && low < 0xE000 then
        (assemble rest).map (Char.ofNat (0x10000 + (high - 0xD800) * 0x400 + (low - 0xDC00)) :: ·)
      else none
    else if 0xDC00 ≤ high && high < 0xE000 then none
    else (assemble (.unit low :: rest)).map (Char.ofNat high :: ·)
  | .unit n :: rest =>
    if 0xD800 ≤ n && n < 0xE000 then none else (assemble rest).map (Char.ofNat n :: ·)

/-- The text that a list of pieces denotes, if it denotes one. -/
def textOf? (pieces : List Piece) : Option String := (assemble pieces).map String.ofList

/-! ## Numbers -/

/-- The parts of a number: the digits before and after the point, and the exponent. -/
structure Numeral where
  negative : Bool
  whole : List Char
  fraction : List Char
  exponent : Option Int

/-- The digits at the start of a text, if there are any, and what follows them. -/
def scanDigits (cs : List Char) : Option (List Char × List Char) :=
  match cs.takeWhile Text.isDigit with
  | [] => none
  | ds => some (ds, cs.dropWhile Text.isDigit)

/-- The digits before the point; only the number zero starts with a zero. -/
def scanWhole (cs : List Char) : Option (List Char × List Char) :=
  match scanDigits cs with
  | some ('0' :: _ :: _, _) => none
  | other => other

/-- The digits after the point, or none where no point stands. -/
def scanFraction : List Char → Option (List Char × List Char)
  | '.' :: rest => scanDigits rest
  | cs => some ([], cs)

/-- The sign and the digits of an exponent. -/
def scanPower : List Char → Option (Int × List Char)
  | '+' :: rest => (scanDigits rest).map fun (ds, rest) => (Decimal.digitsValue ds, rest)
  | '-' :: rest => (scanDigits rest).map fun (ds, rest) => (-(Decimal.digitsValue ds : Int), rest)
  | cs => (scanDigits cs).map fun (ds, rest) => (Decimal.digitsValue ds, rest)

/-- The exponent, or none where none stands. -/
def scanExponent : List Char → Option (Option Int × List Char)
  | 'e' :: rest | 'E' :: rest => (scanPower rest).map fun (e, rest) => (some e, rest)
  | cs => some (none, cs)

/-- A number at the start of a text. -/
def scanNumeral (negative : Bool) (cs : List Char) : Option (Numeral × List Char) := do
  let (whole, cs) ← scanWhole cs
  let (fraction, cs) ← scanFraction cs
  let (exponent, cs) ← scanExponent cs
  return (⟨negative, whole, fraction, exponent⟩, cs)

/-- The tree of a numeral: an integer if it is written as one and fits, a double otherwise.
The negative zero is a double. -/
def Numeral.toJson (n : Numeral) : Json :=
  let value := Decimal.digitsValue n.whole
  if n.fraction = [] ∧ n.exponent = none ∧ !n.negative ∧ value ≤ Decimal.largestWord then .int value
  else if n.fraction = [] ∧ n.exponent = none ∧ n.negative ∧ 0 < value ∧
      value ≤ 0x8000000000000000 then
    .int (-(value : Int))
  else
    match Decimal.scaled n.whole n.fraction (n.exponent.getD 0) with
    | some x => .float (Decimal.signed n.negative x)
    | none => .malformed

theorem length_scanDigits {cs ds rest : List Char} (h : scanDigits cs = some (ds, rest)) :
    rest.length < cs.length := by
  unfold scanDigits at h
  split at h
  · simp at h
  · rename_i hne
    simp only [Option.some.injEq, Prod.mk.injEq] at h
    have hsplit := congrArg List.length
      (List.takeWhile_append_dropWhile (p := Text.isDigit) (l := cs))
    have hpos : 0 < (cs.takeWhile Text.isDigit).length := List.length_pos_iff.2 hne
    rw [List.length_append] at hsplit
    rw [← h.2]
    omega

theorem length_scanWhole {cs ds rest : List Char} (h : scanWhole cs = some (ds, rest)) :
    rest.length < cs.length := by
  unfold scanWhole at h
  split at h
  · simp at h
  · exact length_scanDigits h

theorem length_scanFraction {cs ds rest : List Char} (h : scanFraction cs = some (ds, rest)) :
    rest.length ≤ cs.length := by
  unfold scanFraction at h
  split at h
  · have := length_scanDigits h
    simp only [List.length_cons]
    omega
  · simp_all

theorem length_scanPower {cs : List Char} {e : Int} {rest : List Char}
    (h : scanPower cs = some (e, rest)) : rest.length ≤ cs.length := by
  unfold scanPower at h
  split at h <;>
  · simp only [Option.map_eq_some_iff, Prod.exists, Prod.mk.injEq] at h
    obtain ⟨ds, r, hr, _, rfl⟩ := h
    have := length_scanDigits hr
    grind

theorem length_scanExponent {cs : List Char} {e : Option Int} {rest : List Char}
    (h : scanExponent cs = some (e, rest)) : rest.length ≤ cs.length := by
  unfold scanExponent at h
  split at h
  · simp only [Option.map_eq_some_iff, Prod.exists, Prod.mk.injEq] at h
    obtain ⟨e', r, hr, _, rfl⟩ := h
    have := length_scanPower hr
    simp only [List.length_cons]
    omega
  · simp only [Option.map_eq_some_iff, Prod.exists, Prod.mk.injEq] at h
    obtain ⟨e', r, hr, _, rfl⟩ := h
    have := length_scanPower hr
    simp only [List.length_cons]
    omega
  · simp_all

theorem length_scanNumeral {negative : Bool} {cs : List Char} {n : Numeral} {rest : List Char}
    (h : scanNumeral negative cs = some (n, rest)) : rest.length < cs.length := by
  simp only [scanNumeral, Option.bind_eq_bind, Option.bind_eq_some_iff, Option.pure_def,
    Option.some.injEq, Prod.mk.injEq, Prod.exists] at h
  obtain ⟨ds, r₁, h₁, fs, r₂, h₂, e, r₃, h₃, _, rfl⟩ := h
  have := length_scanWhole h₁
  have := length_scanFraction h₂
  have := length_scanExponent h₃
  omega

/-! ## Trees -/

/-- The tree of a member list, if all keys denote texts. -/
def objectOf (members : List (Option String × Json)) : Json :=
  match members.mapM fun (key, j) => key.map fun k => (k, j) with
  | some members => .object members
  | none => .malformed

mutual

/-- A tree at the start of a text, after leading space. -/
def scanTree (cs : List Char) : Option (Json × Rest cs) :=
  have hs := length_skipSpace_le cs
  match h : skipSpace cs with
  | '"' :: rest =>
    match ht : scanText rest with
    | some (pieces, after) =>
      some (match textOf? pieces with | some s => .text s | none => .malformed,
        ⟨after, by have := length_scanText ht; simp_all; omega⟩)
    | none => none
  | '[' :: rest =>
    match hr : skipSpace rest with
    | ']' :: after =>
      some (.array [], ⟨after, by have := length_skipSpace_le rest; simp_all; omega⟩)
    | _ =>
      match scanItems rest with
      | some (items, after) => some (.array items, ⟨after, by have := after.2; simp_all; omega⟩)
      | none => none
  | '\x7b' :: rest =>
    match hr : skipSpace rest with
    | '\x7d' :: after =>
      some (.object [], ⟨after, by have := length_skipSpace_le rest; simp_all; omega⟩)
    | _ =>
      match scanMembers rest with
      | some (members, after) =>
        some (objectOf members, ⟨after, by have := after.2; simp_all; omega⟩)
      | none => none
  | 'n' :: 'u' :: 'l' :: 'l' :: rest => some (.null, ⟨rest, by simp_all; omega⟩)
  | 't' :: 'r' :: 'u' :: 'e' :: rest => some (.bool true, ⟨rest, by simp_all; omega⟩)
  | 'f' :: 'a' :: 'l' :: 's' :: 'e' :: rest => some (.bool false, ⟨rest, by simp_all; omega⟩)
  | '-' :: rest =>
    match hn : scanNumeral true rest with
    | some (n, after) =>
      some (n.toJson, ⟨after, by have := length_scanNumeral hn; simp_all; omega⟩)
    | none => none
  | other =>
    match hn : scanNumeral false other with
    | some (n, after) =>
      some (n.toJson, ⟨after, by have := length_scanNumeral hn; simp_all; omega⟩)
    | none => none
termination_by (cs.length, 0)
decreasing_by all_goals (simp_all; omega)

/-- Items up to the closing bracket, of which there is at least one. -/
def scanItems (cs : List Char) : Option (List Json × Rest cs) :=
  match scanTree cs with
  | none => none
  | some (j, ⟨rest, hrest⟩) =>
    match h : skipSpace rest with
    | ',' :: more =>
      match scanItems more with
      | some (items, after) =>
        some (j :: items, ⟨after, by
          have := length_skipSpace_le rest; have := after.2; simp_all; omega⟩)
      | none => none
    | ']' :: after =>
      some ([j], ⟨after, by have := length_skipSpace_le rest; simp_all; omega⟩)
    | _ => none
termination_by (cs.length, 1)
decreasing_by
  · exact Prod.Lex.right _ (by omega)
  · exact Prod.Lex.left _ _ (by have := length_skipSpace_le rest; simp_all; omega)

/-- Members up to the closing brace, of which there is at least one. -/
def scanMembers (cs : List Char) : Option (List (Option String × Json) × Rest cs) :=
  have hs := length_skipSpace_le cs
  match h : skipSpace cs with
  | '"' :: start =>
    match ht : scanText start with
    | none => none
    | some (pieces, afterKey) =>
      have hk := length_scanText ht
      match hc : skipSpace afterKey with
      | ':' :: value =>
        have := length_skipSpace_le afterKey
        match scanTree value with
        | none => none
        | some (j, ⟨rest, hrest⟩) =>
          have := length_skipSpace_le rest
          match hr : skipSpace rest with
          | ',' :: more =>
            match scanMembers more with
            | some (members, after) =>
              some ((textOf? pieces, j) :: members, ⟨after, by have := after.2; simp_all; omega⟩)
            | none => none
          | '\x7d' :: after => some ([(textOf? pieces, j)], ⟨after, by simp_all; omega⟩)
          | _ => none
      | _ => none
  | _ => none
termination_by (cs.length, 1)
decreasing_by all_goals (simp_all; omega)

end

/-- The tree of a text that follows the grammar, with nothing but space after it. -/
def scan? (text : String) : Option Json :=
  match scanTree text.toList with
  | some (j, rest) => if (skipSpace rest).isEmpty then some j else none
  | none => none

/-- The tree of a text, all of which denotes something and is not nested too deep. -/
def parse? (text : String) : Option Json :=
  (scan? text).filter (isReadable maxDepth)

end Dataflow.Json

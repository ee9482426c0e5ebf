import Mathlib.Data.List.Basic
import Dataflow.Json.Reader

/-!
# Reading texts and integers that were written

A text that was written with its escapes is read back up to its closing quote
(`Json.exists_scanText`), and an integer that was written in decimal is read back up to the
first character that cannot belong to a number (`Json.scanNumeral_toDigits`).  What follows is
left over in both cases.
-/

namespace Dataflow.Json

/-! ## Texts -/

/-- The piece that a character of a text is read as: a unit where its escape has four digits. -/
def pieceOf (c : Char) : Piece :=
  if escapeChar c = ['\\', 'u', '0', '0', hexDigit (c.toNat / 16), hexDigit (c.toNat % 16)] then
    .unit c.toNat
  else .char c

/-- The escapes of control characters have the digits of their numbers. -/
lemma hexUnit?_hexDigit {n : ℕ} (h : n < 32) :
    hexUnit? '0' '0' (hexDigit (n / 16)) (hexDigit (n % 16)) = some n := by
  have key : ∀ m : Fin 32,
      hexUnit? '0' '0' (hexDigit (m.val / 16)) (hexDigit (m.val % 16)) = some m.val := by decide
  exact key ⟨n, h⟩

/-- The three forms of a character inside a text. -/
lemma escapeChar_cases (c : Char) :
    (∃ e, e ≠ 'u' ∧ escapeChar c = ['\\', e] ∧ shortEscape? e = some c) ∨
      (c.toNat < 32 ∧ escapeChar c =
        ['\\', 'u', '0', '0', hexDigit (c.toNat / 16), hexDigit (c.toNat % 16)]) ∨
      (32 ≤ c.toNat ∧ c ≠ '"' ∧ c ≠ '\\' ∧ escapeChar c = [c]) := by
  unfold escapeChar
  split
  case h_8 _ hquote hslash _ _ _ _ _ =>
    -- a character without a short escape
    split
    · rename_i hlow
      exact .inr (.inl ⟨hlow, rfl⟩)
    · rename_i hlow
      exact .inr (.inr ⟨by omega, hquote, hslash, rfl⟩)
  all_goals exact .inl ⟨_, by decide, rfl, rfl⟩

/-- A character that was written is read as its piece. -/
lemma scanText_escapeChar (c : Char) (cs : List Char) :
    scanText (escapeChar c ++ cs) =
      (scanText cs).map fun (pieces, rest) => (pieceOf c :: pieces, rest) := by
  rcases escapeChar_cases c with ⟨e, hu, hescape, hshort⟩ | ⟨hlow, hescape⟩ |
    ⟨hhigh, hquote, hslash, hescape⟩
  · have hpiece : pieceOf c = .char c := by simp [pieceOf, hescape]
    rw [hescape, hpiece]
    simp only [List.cons_append, List.nil_append]
    rw [scanText, hshort]
    · cases scanText cs <;> rfl
    · intro a b c d rest heq
      simp [hu] at heq
  · have hpiece : pieceOf c = .unit c.toNat := by simp [pieceOf, hescape]
    rw [hescape, hpiece]
    simp only [List.cons_append, List.nil_append]
    rw [scanText, hexUnit?_hexDigit hlow]
    cases scanText cs <;> rfl
  · have hpiece : pieceOf c = .char c := by simp [pieceOf, hescape]
    rw [hescape, hpiece, List.singleton_append, scanText]
    · simp [hslash, Nat.not_lt.2 hhigh]
    all_goals simp [hquote, hslash]

/-- The pieces of a text make the text. -/
lemma assemble_map_pieceOf (cs : List Char) : assemble (cs.map pieceOf) = some cs := by
  induction cs with
  | nil => rfl
  | cons c cs ih =>
    rw [List.map_cons]
    rcases escapeChar_cases c with ⟨e, hu, hescape, -⟩ | ⟨hlow, hescape⟩ | ⟨-, -, -, hescape⟩
    · have hpiece : pieceOf c = .char c := by simp [pieceOf, hescape]
      simp [hpiece, assemble, ih]
    · have hpiece : pieceOf c = .unit c.toNat := by simp [pieceOf, hescape]
      -- the unit of a control character is no half of a surrogate pair
      rw [hpiece, assemble.eq_def]
      split
      · simp_all
      · simp_all
      · rename_i high low rest heq
        obtain ⟨hhigh, hrest⟩ := List.cons.inj heq
        obtain rfl := Piece.unit.inj hhigh
        rw [if_neg (by simp; omega), if_neg (by simp; omega), ← hrest, ih]
        simp
      · rename_i n rest _ heq
        obtain ⟨hn, hrest⟩ := List.cons.inj heq
        obtain rfl := Piece.unit.inj hn
        rw [if_neg (by simp; omega), ← hrest, ih]
        simp
    · have hpiece : pieceOf c = .char c := by simp [pieceOf, hescape]
      simp [hpiece, assemble, ih]

/-- A text that was written is read back up to its closing quote. -/
lemma exists_scanText (s : String) (rest : List Char) : ∃ pieces,
    scanText (s.toList.flatMap escapeChar ++ '"' :: rest) = some (pieces, rest) ∧
      textOf? pieces = some s := by
  have hscan : ∀ cs : List Char, scanText (cs.flatMap escapeChar ++ '"' :: rest) =
      some (cs.map pieceOf, rest) := by
    intro cs
    induction cs with
    | nil => rfl
    | cons c cs ih =>
      rw [List.flatMap_cons, List.append_assoc, scanText_escapeChar, ih]
      rfl
  refine ⟨_, hscan s.toList, ?_⟩
  rw [textOf?, assemble_map_pieceOf, Option.map_some, String.ofList_toList]

/-! ## Runs of digits -/

/-- What may follow a tree: nothing, a comma or a closing bracket. -/
def Follows : List Char → Prop
  | [] => True
  | c :: _ => c = ',' ∨ c = ']' ∨ c = '\x7d'

/-- No digit stands at the front. -/
def NoDigit (cs : List Char) : Prop := ∀ c ∈ cs.head?, Text.isDigit c = false

/-- Digits that may stand before a point: only the number zero starts with a zero. -/
structure IsWhole (ds : List Char) : Prop where
  ne_nil : ds ≠ []
  isDigit : ∀ c ∈ ds, Text.isDigit c = true
  ne_zero_cons : ∀ c cs, ds ≠ '0' :: c :: cs

variable {ds rest : List Char}

lemma Follows.noDigit (h : Follows rest) : NoDigit rest := by
  cases rest with
  | nil => simp [NoDigit]
  | cons c rest => rcases h with rfl | rfl | rfl <;> simp [NoDigit, Text.isDigit]

lemma Follows.scanFraction (h : Follows rest) : scanFraction rest = some ([], rest) := by
  cases rest with
  | nil => rfl
  | cons c rest => rcases h with rfl | rfl | rfl <;> simp [Json.scanFraction]

lemma Follows.scanExponent (h : Follows rest) : scanExponent rest = some (none, rest) := by
  cases rest with
  | nil => rfl
  | cons c rest => rcases h with rfl | rfl | rfl <;> simp [Json.scanExponent]

lemma scanDigits_append (hne : ds ≠ []) (hdigits : ∀ c ∈ ds, Text.isDigit c = true)
    (hrest : NoDigit rest) : scanDigits (ds ++ rest) = some (ds, rest) := by
  have hsplit : rest.takeWhile Text.isDigit = [] ∧ rest.dropWhile Text.isDigit = rest := by
    cases rest with
    | nil => simp
    | cons c rest => simp [hrest c rfl]
  rw [scanDigits, List.takeWhile_append_of_pos hdigits, List.dropWhile_append_of_pos hdigits,
    hsplit.1, hsplit.2, List.append_nil]
  cases ds with
  | nil => exact absurd rfl hne
  | cons c cs => rfl

lemma IsWhole.scanWhole_append (h : IsWhole ds) (hrest : NoDigit rest) :
    scanWhole (ds ++ rest) = some (ds, rest) := by
  rw [scanWhole, scanDigits_append h.ne_nil h.isDigit hrest]
  split
  · rename_i heq
    simp only [Option.some.injEq, Prod.mk.injEq] at heq
    exact absurd heq.1 (h.ne_zero_cons _ _)
  · rfl

/-! ## Integers -/

lemma isDigit_of_mem_toDigits {n : ℕ} {c : Char} (h : c ∈ Nat.toDigits 10 n) :
    Text.isDigit c = true := by
  have hdigit := Nat.isDigit_of_mem_toDigits (by decide) (by decide) h
  simpa [Char.isDigit, Text.isDigit, Char.le_def] using hdigit

lemma toDigits_ne_cons_zero {n : ℕ} (h : 0 < n) (cs : List Char) :
    Nat.toDigits 10 n ≠ '0' :: cs := by
  induction n using Nat.strongRecOn generalizing cs with
  | ind n ih =>
    by_cases hn : n < 10
    · rw [Nat.toDigits_of_lt_base hn]
      have hdigit : ∀ m : Fin 10, Nat.digitChar m.val = '0' → m.val = 0 := by decide
      intro heq
      have hzero := hdigit ⟨n, hn⟩ (List.cons.inj heq).1
      simp only at hzero
      omega
    · rw [Nat.toDigits_of_base_le (by decide) (by omega)]
      intro heq
      -- the first digit is that of the number without its last digit
      cases hinit : Nat.toDigits 10 (n / 10) with
      | nil => exact Nat.toDigits_ne_nil hinit
      | cons c rest =>
        rw [hinit, List.cons_append] at heq
        obtain rfl := (List.cons.inj heq).1
        exact ih (n / 10) (by omega) (by omega) rest hinit

lemma isWhole_toDigits (n : ℕ) : IsWhole (Nat.toDigits 10 n) where
  ne_nil := Nat.toDigits_ne_nil
  isDigit _ h := isDigit_of_mem_toDigits h
  ne_zero_cons c cs := by
    rcases Nat.eq_zero_or_pos n with rfl | hn
    · rw [Nat.toDigits_zero]
      simp
    · exact toDigits_ne_cons_zero hn _

/-- A number that was written is read back up to what follows it. -/
lemma scanNumeral_toDigits (negative : Bool) (n : ℕ) (h : Follows rest) :
    scanNumeral negative (Nat.toDigits 10 n ++ rest) =
      some (⟨negative, Nat.toDigits 10 n, [], none⟩, rest) := by
  simp [scanNumeral, (isWhole_toDigits n).scanWhole_append h.noDigit, h.scanFraction,
    h.scanExponent]

end Dataflow.Json

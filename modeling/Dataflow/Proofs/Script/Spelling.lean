import Dataflow.Proofs.Json.Scalar
import Dataflow.Proofs.Script.Rendering

/-!
# How tokens are spelled

A line may spell its tokens in many ways: with any blanks around them, with either quote, and
with more or fewer escapes in a text.  What matters is that no token goes on where the next one
starts (`Token.EndsBefore`), since the scanner takes the longest token that fits.  A line that
spells tokens is scanned to these tokens (`tokensOf_spells`).
-/

namespace Dataflow.Script

/-! ## Spellings -/

/-- The characters between quotes that stand for a text. -/
inductive Quoted (quote : Char) : List Char → List Char → Prop where
  | nil : Quoted quote [] []
  | plain {c : Char} {s body : List Char} (hquote : c ≠ quote) (hslash : c ≠ '\\')
    (h : Quoted quote s body) : Quoted quote (c :: s) (c :: body)
  | escaped (e : Char) {s body : List Char} (h : Quoted quote s body) :
    Quoted quote (unescape e :: s) ('\\' :: e :: body)

/-- The characters of a token. -/
inductive Token.Spelled : Token → List Char → Prop where
  | int {n : Int64} (h : 0 ≤ n.toInt) : Spelled (.int n) (Nat.toDigits 10 n.toInt.toNat)
  | text {s : String} {quote : Char} {body : List Char} (hquote : quote = '"' ∨ quote = '\'')
    (h : Quoted quote s.toList body) : Spelled (.text s) (quote :: (body ++ [quote]))
  | word {name : String} (h : isWord name = true) : Spelled (.word name) name.toList
  | symbol (s : Symbol) : Spelled (.symbol s) s.text.toList

/-- A token does not go on with the characters that follow. -/
def Token.EndsBefore (t : Token) (cs : List Char) : Prop :=
  ∀ c ∈ cs.head?, match t with
    | .int _ => isDigitOrMark c = false ∧ c ≠ '.' ∧ c ≠ 'e' ∧ c ≠ 'E'
    | .word _ => isWordChar c = false
    | .symbol s => ∀ d, s.text.toList = [d] → Symbol.ofTwo? d c = none
    | .text _ | .float _ => True

/-- The characters of a line that spells tokens. -/
inductive Spells : List Token → List Char → Prop where
  | nil : Spells [] []
  | blank {ts : List Token} {c : Char} {cs : List Char} (hc : Text.isBlank c = true)
    (h : Spells ts cs) : Spells ts (c :: cs)
  | comment (cs : List Char) : Spells [] ('#' :: cs)
  | token {t : Token} {ts : List Token} {w cs : List Char} (ht : t.Spelled w)
    (hends : t.EndsBefore cs) (h : Spells ts cs) : Spells (t :: ts) (w ++ cs)

/-! ## Classes of characters -/

/-- Whether two lists of ranges have no code point in common. -/
def disjoint (ranges ranges' : List (ℕ × ℕ)) : Bool :=
  ranges.all fun r => ranges'.all fun r' => Nat.blt r.2 r'.1 || Nat.blt r'.2 r.1

lemma inRanges_eq_false {ranges ranges' : List (ℕ × ℕ)} {code : ℕ}
    (h : disjoint ranges ranges' = true) (hc : Text.inRanges ranges code = true) :
    Text.inRanges ranges' code = false := by
  simp only [disjoint, List.all_eq_true, Bool.or_eq_true, Nat.blt_eq] at h
  simp only [Text.inRanges, List.any_eq_true, List.any_eq_false, Bool.and_eq_true,
    decide_eq_true_eq] at hc ⊢
  obtain ⟨r, hr, hlow, hhigh⟩ := hc
  intro r' hr' hcode
  have hdisjoint := h r hr r' hr'
  omega

lemma isDigit_eq_inRanges (c : Char) :
    Text.isDigit c = Text.inRanges [(0x30, 0x39)] c.toNat := by
  have hzero : ('0' ≤ c) ↔ 0x30 ≤ c.toNat := by
    rw [Char.le_def, UInt32.le_iff_toNat_le]
    rfl
  have hnine : (c ≤ '9') ↔ c.toNat ≤ 0x39 := by
    rw [Char.le_def, UInt32.le_iff_toNat_le]
    rfl
  simp [Text.isDigit, Text.inRanges, hzero, hnine]

/-- No letter lies among the other characters of ASCII. -/
lemma isLetter_eq_false {c : Char}
    (h : Text.inRanges [(0, 0x40), (0x5B, 0x60), (0x7B, 0xA9)] c.toNat = true) :
    Text.isLetter c = false := inRanges_eq_false (by decide +kernel) h

/-- The first character of a word is no blank, and starts no token of another kind. -/
lemma of_isWordStart {c : Char} (h : (Text.isLetter c || c == '_') = true) :
    Text.isBlank c = false ∧ c ≠ '#' ∧ Text.isDigit c = false := by
  rw [Bool.or_eq_true, beq_iff_eq] at h
  rcases h with hletter | rfl
  · have hdigit : Text.inRanges [(0x30, 0x39)] c.toNat = false :=
      inRanges_eq_false (by decide +kernel) hletter
    have hblank : Text.isBlank c = false := inRanges_eq_false (by decide +kernel) hletter
    refine ⟨hblank, ?_, by rw [isDigit_eq_inRanges, hdigit]⟩
    rintro rfl
    rw [isLetter_eq_false (by decide)] at hletter
    simp at hletter
  · decide

lemma of_isDigit {c : Char} (h : Text.isDigit c = true) :
    Text.isBlank c = false ∧ c ≠ '#' := by
  refine ⟨?_, ?_⟩
  · rw [isDigit_eq_inRanges] at h
    exact inRanges_eq_false (by decide) h
  · rintro rfl
    revert h
    decide

/-! ## Scanning -/

/-- The longest run of a class that starts a list, if the rest of the list does not go on. -/
lemma takeWhile_dropWhile_append {α : Type} {p : α → Bool} {w cs : List α}
    (hw : ∀ c ∈ w, p c = true) (hcs : ∀ c ∈ cs.head?, p c = false) :
    (w ++ cs).takeWhile p = w ∧ (w ++ cs).dropWhile p = cs := by
  have hrest : cs.takeWhile p = [] ∧ cs.dropWhile p = cs := by
    cases cs with
    | nil => exact ⟨rfl, rfl⟩
    | cons c cs =>
      have hc := hcs c rfl
      simp [hc]
  rw [List.takeWhile_append_of_pos hw, List.dropWhile_append_of_pos hw, hrest.1, hrest.2,
    List.append_nil]
  exact ⟨rfl, rfl⟩

lemma scanQuoted_spelled {quote : Char} (hquote : quote ≠ '\\') {s body : List Char}
    (h : Quoted quote s body) (rest : List Char) :
    scanQuoted quote (body ++ quote :: rest) = some (s, rest) := by
  induction h with
  | nil => cases rest <;> simp [scanQuoted]
  | @plain c s body hne hslash _ ih =>
    -- the scanner looks at two characters, and a quote at least comes behind this one
    obtain ⟨e, more, hmore⟩ : ∃ e more, body ++ quote :: rest = e :: more := by
      cases body with
      | nil => exact ⟨_, _, rfl⟩
      | cons e body => exact ⟨_, _, rfl⟩
    rw [hmore] at ih
    rw [List.cons_append, hmore, scanQuoted, if_neg hne, if_neg hslash, ih]
    rfl
  | escaped e _ ih =>
    rw [List.cons_append, List.cons_append, scanQuoted, if_neg (Ne.symm hquote), if_pos rfl, ih]
    rfl

/-- A token at the start of a text is scanned, if the text after it does not go on with it. -/
def Scans (t : Token) (w cs : List Char) : Prop :=
  ∃ c w', w = c :: w' ∧ Text.isBlank c = false ∧ c ≠ '#' ∧
    ∀ line, ∃ h, scanToken line c (w' ++ cs) = .ok (t, ⟨cs, h⟩)

lemma scanNumber_fst (c : Char) (rest : List Char) :
    (scanNumber c rest).1 = numberOf? (c :: rest.takeWhile isDigitOrMark)
      (scanFraction (rest.dropWhile isDigitOrMark)).1
      (scanExponent (scanFraction (rest.dropWhile isDigitOrMark)).2.1).1 := rfl

lemma scanNumber_snd (c : Char) (rest : List Char) :
    (scanNumber c rest).2.1 =
      (scanExponent (scanFraction (rest.dropWhile isDigitOrMark)).2.1).2.1 := rfl

/-- Without a fraction and an exponent, a number ends with its digits. -/
lemma scanNumber_eq {c : Char} {rest : List Char}
    (hfraction : scanFraction (rest.dropWhile isDigitOrMark) = (none, .all _))
    (hexponent : scanExponent (rest.dropWhile isDigitOrMark) = (none, .all _)) :
    scanNumber c rest =
      (numberOf? (c :: rest.takeWhile isDigitOrMark) none none, dropClass isDigitOrMark rest) := by
  have hbehind : (scanFraction (rest.dropWhile isDigitOrMark)).2.1 =
      rest.dropWhile isDigitOrMark := by
    rw [hfraction]
    rfl
  refine Prod.ext ?_ (Subtype.ext ?_)
  · rw [scanNumber_fst, hbehind, hexponent, hfraction]
  · rw [scanNumber_snd, hbehind, hexponent]
    rfl

/-- Digits are scanned to the end, and what they stand for has to fit 64 bits with a sign. -/
lemma scanNumber_toDigits (m : ℕ) {n : Int64} {cs : List Char} (hcs : (Token.int n).EndsBefore cs) :
    ∃ c w h, Nat.toDigits 10 m = c :: w ∧ Text.isDigit c = true ∧
      scanNumber c (w ++ cs) =
        (if m < 0x8000000000000000 then some (.int (Int64.ofNat m)) else none, ⟨cs, h⟩) := by
  have hdigits : ∀ c ∈ Nat.toDigits 10 m, Text.isDigit c = true := fun c hc =>
    Json.isDigit_of_mem_toDigits hc
  have hvalue : Decimal.digitsValue (Nat.toDigits 10 m) = m := Nat.ofDigitChars_ten_toDigits
  cases hw : Nat.toDigits 10 m with
  | nil => exact absurd hw Nat.toDigits_ne_nil
  | cons c w =>
    rw [hw] at hdigits hvalue
    have hmarks : ∀ d ∈ w, isDigitOrMark d = true := fun d hd => by
      simp [isDigitOrMark, hdigits d (List.mem_cons_of_mem _ hd)]
    obtain ⟨htake, hdrop⟩ := takeWhile_dropWhile_append hmarks fun d hd => (hcs d hd).1
    have hfraction : scanFraction cs = (none, .all cs) := by
      cases cs with
      | nil => rfl
      | cons d cs =>
        have hpoint := (hcs d rfl).2.1
        rw [scanFraction]
        simp [hpoint]
    have hexponent : scanExponent cs = (none, .all cs) := by
      cases cs with
      | nil => rfl
      | cons d cs =>
        obtain ⟨-, -, hlower, hupper⟩ := hcs d rfl
        rw [scanExponent]
        · simpa using hlower
        · simpa using hupper
    have hnumber : numberOf? (c :: w) none none =
        if m < 0x8000000000000000 then some (.int (Int64.ofNat m)) else none := by
      have hfilter : (c :: w).filter Text.isDigit = c :: w := List.filter_eq_self.2 hdigits
      simp only [numberOf?, hfilter, hvalue]
    rw [← hdrop] at hfraction hexponent
    have hscan := scanNumber_eq hfraction hexponent (c := c)
    rw [htake, hnumber] at hscan
    refine ⟨c, w, by rw [List.length_append]; omega, rfl, hdigits c List.mem_cons_self, ?_⟩
    rw [hscan]
    simp only [dropClass, hdrop]

lemma scans_int {n : Int64} {cs : List Char} (h : 0 ≤ n.toInt)
    (hcs : (Token.int n).EndsBefore cs) :
    Scans (.int n) (Nat.toDigits 10 n.toInt.toNat) cs := by
  have hsmall : n.toInt.toNat < 0x8000000000000000 := by
    have hlt := Int64.toInt_lt n
    omega
  have hback : Int64.ofNat n.toInt.toNat = n := by
    rw [← Int64.ofInt_eq_ofNat, Int.toNat_of_nonneg h, Int64.ofInt_toInt]
  obtain ⟨c, w, hle, hw, hc, hscan⟩ := scanNumber_toDigits n.toInt.toNat hcs
  obtain ⟨hblank, hcomment⟩ := of_isDigit hc
  rw [if_pos hsmall, hback] at hscan
  refine ⟨c, w, hw, hblank, hcomment, fun line => ⟨Nat.lt_succ_of_le hle, ?_⟩⟩
  rw [scanToken, if_pos hc, hscan]

lemma scans_text {s : String} {quote : Char} {body : List Char}
    (hquote : quote = '"' ∨ quote = '\'') (h : Quoted quote s.toList body) (cs : List Char) :
    Scans (.text s) (quote :: (body ++ [quote])) cs := by
  have hclasses : Text.isBlank quote = false ∧ quote ≠ '#' ∧ Text.isDigit quote = false ∧
      (Text.isLetter quote || quote == '_') = false ∧ (quote == '"' || quote == '\'') = true ∧
      quote ≠ '\\' := by
    rcases hquote with rfl | rfl <;>
      exact ⟨by decide, by decide, by decide, by rw [isLetter_eq_false (by decide)]; decide,
        by decide, by decide⟩
  obtain ⟨hblank, hcomment, hdigit, hletter, hmark, hslash⟩ := hclasses
  have hscan := scanQuoted_spelled hslash h cs
  refine ⟨quote, _, rfl, hblank, hcomment, fun line => ?_⟩
  rw [List.append_assoc, List.singleton_append, scanToken, if_neg (by simp [hdigit]),
    if_neg (by simp [hletter]), if_pos hmark]
  split
  · rename_i s' r heq
    rw [hscan, Option.some.injEq, Prod.mk.injEq] at heq
    obtain ⟨rfl, rfl⟩ := heq
    rw [String.ofList_toList]
    exact ⟨by simp only [List.length_cons, List.length_append]; omega, rfl⟩
  · rename_i heq
    simp [hscan] at heq

lemma scans_word {name : String} {cs : List Char} (h : isWord name = true)
    (hcs : (Token.word name).EndsBefore cs) : Scans (.word name) name.toList cs := by
  rw [isWord] at h
  cases hname : name.toList with
  | nil => simp [hname] at h
  | cons c w =>
    rw [hname, Bool.and_eq_true] at h
    obtain ⟨hblank, hcomment, hdigit⟩ := of_isWordStart h.1
    obtain ⟨htake, hdrop⟩ := takeWhile_dropWhile_append (List.all_eq_true.1 h.2) hcs
    have hback : String.ofList (c :: w) = name := by rw [← hname, String.ofList_toList]
    refine ⟨c, w, rfl, hblank, hcomment, fun line => ?_⟩
    refine ⟨by simp only [List.length_cons, List.length_append]; omega, ?_⟩
    rw [scanToken, if_neg (by simp [hdigit]), if_pos h.1]
    simp only [dropClass, htake, hdrop, hback]

/-- The first character of a sign starts no token of another kind. -/
lemma of_symbol (s : Symbol) : ∃ c w, s.text.toList = c :: w ∧ Text.isBlank c = false ∧ c ≠ '#' ∧
    Text.isDigit c = false ∧ (Text.isLetter c || c == '_') = false ∧
    (c == '"' || c == '\'') = false ∧
    ((w = [] ∧ Symbol.ofOne? c = some s) ∨ ∃ d, w = [d] ∧ Symbol.ofTwo? c d = some s) := by
  cases s <;>
    exact ⟨_, _, rfl, by decide, by decide, by decide,
      by rw [isLetter_eq_false (by decide)]; decide, by decide,
      by first | exact .inl ⟨rfl, rfl⟩ | exact .inr ⟨_, rfl, rfl⟩⟩

lemma scans_symbol {s : Symbol} {cs : List Char} (hcs : (Token.symbol s).EndsBefore cs) :
    Scans (.symbol s) s.text.toList cs := by
  obtain ⟨c, w, hw, hblank, hcomment, hdigit, hletter, hquote, hkind⟩ := of_symbol s
  have hscan : ∃ h, scanSymbol c (w ++ cs) = some (s, ⟨cs, h⟩) := by
    rcases hkind with ⟨rfl, hone⟩ | ⟨d, rfl, htwo⟩
    · rw [List.nil_append]
      cases cs with
      | nil =>
        rw [scanSymbol, hone]
        exact ⟨_, rfl⟩
      | cons d cs =>
        -- the sign does not go on with the next character
        have hends := hcs d rfl c hw
        rw [scanSymbol]
        simp only [hends, hone]
        exact ⟨Nat.le_refl _, rfl⟩
    · rw [List.singleton_append, scanSymbol]
      simp only [htwo]
      exact ⟨Nat.le_succ _, rfl⟩
  obtain ⟨hle, hscan⟩ := hscan
  refine ⟨c, w, hw, hblank, hcomment, fun line => ?_⟩
  rw [scanToken, if_neg (by simp [hdigit]), if_neg (by simp [hletter]), if_neg (by simp [hquote]),
    hscan]
  exact ⟨_, rfl⟩

lemma Token.Spelled.scans {t : Token} {w cs : List Char} (h : t.Spelled w)
    (hcs : t.EndsBefore cs) : Scans t w cs := by
  cases h with
  | int hn => exact scans_int hn hcs
  | text hquote hs => exact scans_text hquote hs cs
  | word hname => exact scans_word hname hcs
  | symbol s => exact scans_symbol hcs

/-- **A line that spells tokens is scanned to these tokens.** -/
theorem tokensOf_spells {ts : List Token} {cs : List Char} (h : Spells ts cs) (line : ℕ) :
    tokensOf line cs = .ok ts := by
  induction h with
  | nil => rw [tokensOf]
  | blank hc _ ih => rw [tokensOf, if_pos hc, ih]
  | comment cs => rw [tokensOf, if_neg (by decide), if_pos rfl]
  | token ht hends _ ih =>
    obtain ⟨c, w, rfl, hblank, hcomment, hscan⟩ := ht.scans hends
    obtain ⟨hlt, hscan⟩ := hscan line
    rw [List.cons_append, tokensOf, if_neg (by simp [hblank]), if_neg hcomment, hscan]
    simp only [bind, Except.bind, ih]
    rfl

end Dataflow.Script

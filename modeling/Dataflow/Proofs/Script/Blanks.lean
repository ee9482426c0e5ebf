import Dataflow.Proofs.Script.Spelling

/-!
# Blanks at the end of a line

No token has a blank in it, other than a text between its quotes, and no blank goes on with a
token.  So the scanner reads the same token with blanks at the end of the line as without them
(`scanToken_append`), and the line has the same tokens (`tokensOf_append`).
-/

namespace Dataflow.Script

variable {c : Char} {cs bs : List Char}

/-- All of the characters are blanks. -/
def Blank (bs : List Char) : Prop := ∀ c ∈ bs, Text.isBlank c = true

lemma Blank.tail (h : Blank (c :: bs)) : Blank bs := fun d hd => h d (List.mem_cons_of_mem _ hd)

/-! ## Classes -/

/-- A blank is none of the other characters. -/
lemma ne_of_isBlank {d : Char} (h : Text.isBlank c = true) (hd : Text.isBlank d = false) :
    c ≠ d := by
  rintro rfl
  simp [h] at hd

lemma isWordChar_of_isBlank (h : Text.isBlank c = true) : isWordChar c = false := by
  have hletter : Text.isLetter c = false := inRanges_eq_false (by decide +kernel) h
  have hnumber : Text.inRanges Text.numberRanges c.toNat = false :=
    inRanges_eq_false (by decide +kernel) h
  have hmark : c ≠ '_' := ne_of_isBlank h (by decide)
  simp [isWordChar, Text.isLetterOrNumber, hletter, hnumber, hmark]

lemma isDigit_of_isBlank (h : Text.isBlank c = true) : Text.isDigit c = false := by
  rw [isDigit_eq_inRanges]
  exact inRanges_eq_false (by decide) h

lemma isDigitOrMark_of_isBlank (h : Text.isBlank c = true) : isDigitOrMark c = false := by
  have hmark : c ≠ '_' := ne_of_isBlank h (by decide)
  simp [isDigitOrMark, isDigit_of_isBlank h, hmark]

lemma ofTwo?_of_isBlank (h : Text.isBlank c = true) (d : Char) : Symbol.ofTwo? d c = none := by
  unfold Symbol.ofTwo?
  split <;> first | rfl | exact absurd rfl (ne_of_isBlank h (by decide))

/-! ## Numbers -/

lemma takeWhile_dropWhile_blanks {p : Char → Bool} (hbs : Blank bs)
    (hp : ∀ c, Text.isBlank c = true → p c = false) (cs : List Char) :
    (cs ++ bs).takeWhile p = cs.takeWhile p ∧ (cs ++ bs).dropWhile p = cs.dropWhile p ++ bs := by
  induction cs with
  | nil =>
    have hhead : ∀ c ∈ bs.head?, p c = false := fun c hc => hp c (hbs c (List.mem_of_mem_head? hc))
    exact takeWhile_dropWhile_append (by simp) hhead
  | cons c cs ih =>
    by_cases hc : p c = true
    · simp [hc, ih.1, ih.2]
    · simp [hc]

/-- A character that does not come first in a text does not come first with blanks at its end. -/
lemma head?_append_ne {d : Char} (hbs : Blank bs) (hd : Text.isBlank d = false)
    (h : cs.head? ≠ some d) : (cs ++ bs).head? ≠ some d := by
  cases cs with
  | nil =>
    intro hhead
    exact ne_of_isBlank (hbs d (List.mem_of_mem_head? hhead)) hd rfl
  | cons c cs => exact h

lemma scanFraction_other (h : cs.head? ≠ some '.') : scanFraction cs = (none, .all cs) := by
  rw [scanFraction]
  rintro d rest rfl
  exact h rfl

lemma scanFraction_append (hbs : Blank bs) (cs : List Char) :
    (scanFraction (cs ++ bs)).1 = (scanFraction cs).1 ∧
      (scanFraction (cs ++ bs)).2.1 = (scanFraction cs).2.1 ++ bs := by
  by_cases hpoint : cs.head? = some '.'
  · obtain ⟨rest, rfl⟩ : ∃ rest, cs = '.' :: rest := List.head?_eq_some_iff.1 hpoint
    cases rest with
    | nil =>
      -- a point without a digit behind it
      cases bs with
      | nil => exact ⟨rfl, rfl⟩
      | cons b bs =>
        have hb : Text.isDigit b = false := isDigit_of_isBlank (hbs b List.mem_cons_self)
        rw [List.singleton_append, scanFraction, if_neg (by simp [hb])]
        exact ⟨rfl, rfl⟩
    | cons d rest =>
      obtain ⟨htake, hdrop⟩ := takeWhile_dropWhile_blanks hbs (fun _ => isDigit_of_isBlank) rest
      rw [List.cons_append, List.cons_append, scanFraction, scanFraction, htake]
      split
      · exact ⟨rfl, hdrop⟩
      · exact ⟨rfl, rfl⟩
  · rw [scanFraction_other hpoint, scanFraction_other (head?_append_ne hbs (by decide) hpoint)]
    exact ⟨rfl, rfl⟩

lemma scanPower_append (hbs : Blank bs) (cs : List Char) :
    (scanPower (cs ++ bs)).1 = (scanPower cs).1 ∧
      (scanPower (cs ++ bs)).2.1 = (scanPower cs).2.1 ∧
      (scanPower (cs ++ bs)).2.2.1 = (scanPower cs).2.2.1 ++ bs := by
  have hdigits := takeWhile_dropWhile_blanks hbs fun _ => isDigit_of_isBlank
  have hother : ∀ cs : List Char, cs.head? ≠ some '+' → cs.head? ≠ some '-' →
      scanPower cs = (false, cs.takeWhile Text.isDigit, dropClass Text.isDigit cs) := by
    intro cs hplus hminus
    rw [scanPower]
    · rintro rest rfl
      exact hplus rfl
    · rintro rest rfl
      exact hminus rfl
  by_cases hplus : cs.head? = some '+'
  · obtain ⟨rest, rfl⟩ : ∃ rest, cs = '+' :: rest := List.head?_eq_some_iff.1 hplus
    exact ⟨rfl, hdigits rest⟩
  by_cases hminus : cs.head? = some '-'
  · obtain ⟨rest, rfl⟩ : ∃ rest, cs = '-' :: rest := List.head?_eq_some_iff.1 hminus
    exact ⟨rfl, hdigits rest⟩
  rw [hother cs hplus hminus, hother (cs ++ bs) (head?_append_ne hbs (by decide) hplus)
    (head?_append_ne hbs (by decide) hminus)]
  exact ⟨rfl, hdigits cs⟩

lemma scanExponent_append (hbs : Blank bs) (cs : List Char) :
    (scanExponent (cs ++ bs)).1 = (scanExponent cs).1 ∧
      (scanExponent (cs ++ bs)).2.1 = (scanExponent cs).2.1 ++ bs := by
  have hother : ∀ cs : List Char, cs.head? ≠ some 'e' → cs.head? ≠ some 'E' →
      scanExponent cs = (none, .all cs) := by
    intro cs hlower hupper
    rw [scanExponent]
    · rintro rest rfl
      exact hlower rfl
    · rintro rest rfl
      exact hupper rfl
  by_cases hlower : cs.head? = some 'e'
  · obtain ⟨rest, rfl⟩ : ∃ rest, cs = 'e' :: rest := List.head?_eq_some_iff.1 hlower
    obtain ⟨hsign, hpower, hrest⟩ := scanPower_append hbs rest
    exact ⟨congrArg some (Prod.ext hsign hpower), hrest⟩
  by_cases hupper : cs.head? = some 'E'
  · obtain ⟨rest, rfl⟩ : ∃ rest, cs = 'E' :: rest := List.head?_eq_some_iff.1 hupper
    obtain ⟨hsign, hpower, hrest⟩ := scanPower_append hbs rest
    exact ⟨congrArg some (Prod.ext hsign hpower), hrest⟩
  rw [hother cs hlower hupper, hother (cs ++ bs) (head?_append_ne hbs (by decide) hlower)
    (head?_append_ne hbs (by decide) hupper)]
  exact ⟨rfl, rfl⟩

lemma scanNumber_append (hbs : Blank bs) (c : Char) (cs : List Char) :
    (scanNumber c (cs ++ bs)).1 = (scanNumber c cs).1 ∧
      (scanNumber c (cs ++ bs)).2.1 = (scanNumber c cs).2.1 ++ bs := by
  obtain ⟨htake, hdrop⟩ := takeWhile_dropWhile_blanks hbs (fun _ => isDigitOrMark_of_isBlank) cs
  obtain ⟨hfraction, hpoint⟩ := scanFraction_append hbs (cs.dropWhile isDigitOrMark)
  obtain ⟨hexponent, hrest⟩ :=
    scanExponent_append hbs (scanFraction (cs.dropWhile isDigitOrMark)).2.1
  refine ⟨?_, ?_⟩
  · rw [scanNumber_fst, scanNumber_fst, htake, hdrop, hpoint, hfraction, hexponent]
  · rw [scanNumber_snd, scanNumber_snd, hdrop, hpoint, hrest]

/-! ## Texts and signs -/

lemma scanQuoted_eq_none {quote : Char} (h : quote ∉ bs) : scanQuoted quote bs = none := by
  fun_induction scanQuoted quote bs <;> simp_all

lemma scanQuoted_append {quote : Char} (h : quote ∉ bs) (cs : List Char) :
    scanQuoted quote (cs ++ bs) = (scanQuoted quote cs).map fun x => (x.1, x.2 ++ bs) := by
  fun_induction scanQuoted quote cs with
  | case1 => exact scanQuoted_eq_none h
  | case2 => cases bs <;> simp [scanQuoted]
  | case3 c hc =>
    refine scanQuoted_eq_none ?_
    simpa using ⟨Ne.symm hc, h⟩
  | case4 => simp [scanQuoted]
  | case5 e rest hquote ih => simp [scanQuoted, hquote, ih, Function.comp_def]
  | case6 c e rest hquote hslash ih =>
    rw [List.cons_append, List.cons_append, scanQuoted, if_neg hquote, if_neg hslash,
      ← List.cons_append, ih]
    simp [Function.comp_def]

lemma scanSymbol_append (hbs : Blank bs) (c : Char) (cs : List Char) :
    (scanSymbol c (cs ++ bs)).map (fun x => (x.1, x.2.1)) =
      (scanSymbol c cs).map fun x => (x.1, x.2.1 ++ bs) := by
  cases cs with
  | nil =>
    cases bs with
    | nil => cases h : scanSymbol c [] <;> simp [h]
    | cons b bs =>
      have hb := ofTwo?_of_isBlank (hbs b List.mem_cons_self) c
      rw [List.nil_append, scanSymbol, scanSymbol]
      simp only [hb, Option.map_map]
      rfl
  | cons d cs =>
    rw [List.cons_append, scanSymbol, scanSymbol]
    cases Symbol.ofTwo? c d with
    | some s => rfl
    | none =>
      simp only [Option.map_map]
      rfl

/-! ## Tokens -/

/-- The token at the start of a line is the same with blanks at the end of the line. -/
lemma scanToken_append (hbs : Blank bs) (line : ℕ) (c : Char) (cs : List Char) :
    (scanToken line c (cs ++ bs)).map (fun x => (x.1, x.2.1)) =
      (scanToken line c cs).map fun x => (x.1, x.2.1 ++ bs) := by
  rw [scanToken, scanToken]
  split
  · obtain ⟨htoken, hrest⟩ := scanNumber_append hbs c cs
    cases hnumber : scanNumber c cs with
    | mk token rest =>
      cases hnumber' : scanNumber c (cs ++ bs) with
      | mk token' rest' =>
        rw [hnumber, hnumber'] at htoken hrest
        obtain rfl : token' = token := htoken
        cases token' with
        | none => rfl
        | some token => simpa [Except.map] using hrest
  split
  · obtain ⟨htake, hdrop⟩ := takeWhile_dropWhile_blanks hbs (fun _ => isWordChar_of_isBlank) cs
    simp [Except.map, dropClass, htake, hdrop]
  split
  · rename_i hquote
    have hnot : c ∉ bs := by
      intro hmem
      rw [Bool.or_eq_true, beq_iff_eq, beq_iff_eq] at hquote
      rcases hquote with rfl | rfl <;> exact ne_of_isBlank (hbs _ hmem) (by decide) rfl
    have happend := scanQuoted_append hnot cs
    split
    · rename_i hscan'
      split
      · rename_i hscan
        rw [hscan, hscan', Option.map_some, Option.some.injEq, Prod.mk.injEq] at happend
        simp [Except.map, happend.1, happend.2]
      · rename_i hscan
        simp [hscan, hscan'] at happend
    · rename_i hscan'
      split
      · rename_i hscan
        simp [hscan, hscan'] at happend
      · rfl
  · have happend := scanSymbol_append hbs c cs
    cases hscan : scanSymbol c cs with
    | none =>
      rw [hscan, Option.map_none, Option.map_eq_none_iff] at happend
      rw [happend]
      rfl
    | some x =>
      rw [hscan, Option.map_some, Option.map_eq_some_iff] at happend
      obtain ⟨y, hy, hxy⟩ := happend
      rw [hy]
      simpa [Except.map] using hxy

lemma tokensOf_blank (h : Blank bs) (line : ℕ) : tokensOf line bs = .ok [] := by
  induction bs with
  | nil => rw [tokensOf]
  | cons b bs ih => rw [tokensOf, if_pos (h b List.mem_cons_self), ih h.tail]

/-- **Blanks at the end of a line make no difference to its tokens.** -/
theorem tokensOf_append (hbs : Blank bs) (line : ℕ) (cs : List Char) :
    tokensOf line (cs ++ bs) = tokensOf line cs := by
  fun_induction tokensOf line cs with
  | case1 => exact tokensOf_blank hbs line
  | case2 c cs hblank ih => rw [List.cons_append, tokensOf, if_pos hblank, ih]
  | case3 cs hblank => rw [List.cons_append, tokensOf, if_neg hblank, if_pos rfl]
  | case4 c cs hblank hcomment ih =>
    have happend := scanToken_append hbs line c cs
    rw [List.cons_append, tokensOf, if_neg hblank, if_neg hcomment]
    cases hscan : scanToken line c cs with
    | error e =>
      cases hscan' : scanToken line c (cs ++ bs) with
      | error e' =>
        obtain rfl : e' = e := by simpa [hscan, hscan', Except.map] using happend
        rfl
      | ok x => simp [hscan, hscan', Except.map] at happend
    | ok x =>
      cases hscan' : scanToken line c (cs ++ bs) with
      | error e => simp [hscan, hscan', Except.map] at happend
      | ok y =>
        obtain ⟨t, r, hr⟩ := x
        obtain ⟨t', r', hr'⟩ := y
        obtain ⟨rfl, rfl⟩ : t' = t ∧ r' = r ++ bs := by
          simpa [hscan, hscan', Except.map] using happend
        have hmore := ih ⟨r, hr⟩
        simp only [bind, Except.bind] at hmore ⊢
        rw [hmore]

end Dataflow.Script

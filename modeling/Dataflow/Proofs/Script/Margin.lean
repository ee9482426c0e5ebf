import Mathlib.Data.List.DropRight
import Mathlib.Data.List.Forall2
import Dataflow.Program.Generation
import Dataflow.Proofs.Script.Blanks
import Dataflow.Proofs.Script.Restating
import Dataflow.Proofs.Text.Lines

/-!
# Scripts without their margin

Before the text of a script goes into a program, the margin that its lines have in common, the
blanks at the ends of its lines and the empty lines around it are taken away.  If the margin is
the same text in every line (`SharedMargin`), the script still has the same functions
(`parse_dedented`): the tokens of a line stay as they are, and all lines lose the same
indentation, of which the reader of the script looks at the differences only.
-/

namespace Dataflow.Script

variable {n : ℕ} {cs bs : List Char} {css : List (List Char)}

/-! ## Lines that say nothing, and lines that say the same -/

lemma contents_append (css css' : List (List Char)) :
    contents (css ++ css') = do return (← contents css) ++ (← contents css') := by
  induction css with
  | nil => cases h : contents css' <;> simp [contents, h]
  | cons cs css ih =>
    rw [List.cons_append, contents, ih, contents]
    cases contentOf cs <;> cases contents css <;> cases contents css' <;> simp

/-- A change of the lines changes what they say in the same way. -/
lemma contents_map {f : List Char → List Char} {g : ℕ × List Token → ℕ × List Token}
    (h : ∀ cs ∈ css, contentOf cs = (contentOf (f cs)).map (List.map g)) :
    contents css = (contents (css.map f)).map (List.map g) := by
  induction css with
  | nil => rfl
  | cons cs css ih =>
    rw [contents, h cs List.mem_cons_self, ih fun l hl => h l (List.mem_cons_of_mem _ hl),
      List.map_cons, contents]
    cases contentOf (f cs) <;> cases contents (css.map f) <;> simp

lemma contents_nil_cons (css : List (List Char)) : contents ([] :: css) = contents css := by
  have hnil : contentOf [] = some [] := by
    rw [contentOf, tokensOf]
  rw [contents, hnil]
  cases contents css <;> rfl

lemma contents_dropWhile (css : List (List Char)) :
    contents (css.dropWhile List.isEmpty) = contents css := by
  induction css with
  | nil => rfl
  | cons cs css ih =>
    cases cs with
    | nil => simpa [contents_nil_cons] using ih
    | cons c cs => rfl

lemma contents_reverse_dropWhile (css : List (List Char)) :
    contents (css.dropWhile List.isEmpty).reverse = contents css.reverse := by
  induction css with
  | nil => rfl
  | cons cs css ih =>
    cases cs with
    | nil =>
      rw [List.dropWhile_cons_of_pos rfl, ih, List.reverse_cons, contents_append,
        contents_nil_cons]
      cases contents css.reverse <;> simp [contents]
    | cons c cs => rfl

/-- The empty lines around a text say nothing. -/
lemma contents_dropOuterEmpty (css : List (List Char)) :
    contents (Text.dropOuterEmpty css) = contents css := by
  rw [Text.dropOuterEmpty, contents_dropWhile, contents_reverse_dropWhile, List.reverse_reverse]

/-! ## Blanks at either end of a line -/

lemma indentation_blank_append (hbs : Blank bs) (cs : List Char) :
    indentation (bs ++ cs) = indentation bs + indentation cs := by
  induction bs with
  | nil => simp [indentation]
  | cons b bs ih =>
    have hb := hbs b List.mem_cons_self
    rw [List.cons_append, indentation, indentation, if_pos hb, if_pos hb, ih hbs.tail,
      Nat.add_assoc]

lemma indentation_append (h : ¬ Blank cs) (bs : List Char) :
    indentation (cs ++ bs) = indentation cs := by
  induction cs with
  | nil => exact absurd (by simp [Blank]) h
  | cons c cs ih =>
    rw [List.cons_append, indentation, indentation]
    by_cases hc : Text.isBlank c = true
    · have hcs : ¬ Blank cs := fun hcs => h (List.forall_mem_cons.2 ⟨hc, hcs⟩)
      rw [ih hcs]
    · rw [if_neg hc, if_neg hc]

lemma tokensOf_blank_append (hbs : Blank bs) (n : ℕ) (cs : List Char) :
    tokensOf n (bs ++ cs) = tokensOf n cs := by
  induction bs with
  | nil => rfl
  | cons b bs ih => rw [List.cons_append, tokensOf, if_pos (hbs b List.mem_cons_self), ih hbs.tail]

/-- The line without the blanks at its end, and these. -/
lemma exists_trimEnd (cs : List Char) : ∃ bs, Blank bs ∧ Text.trimEnd cs ++ bs = cs :=
  ⟨cs.rtakeWhile Text.isBlank, fun _ hc => List.mem_rtakeWhile_imp hc,
    List.rdropWhile_append_rtakeWhile⟩

/-- Blanks at the end of a line say nothing. -/
lemma contentOf_trimEnd (cs : List Char) : contentOf (Text.trimEnd cs) = contentOf cs := by
  obtain ⟨bs, hbs, heq⟩ := exists_trimEnd cs
  generalize Text.trimEnd cs = l at heq
  subst heq
  rw [contentOf, contentOf, tokensOf_append hbs]
  split
  · rfl
  · rename_i ts hts hl
    have hsays : ¬ Blank l := fun hblank =>
      hts (Except.ok.inj (hl.symm.trans (tokensOf_blank hblank 0)))
    rw [indentation_append hsays]
  · rfl

/-- Blanks at the start of a line count for its indentation. -/
lemma contentOf_blank_append (hbs : Blank bs) (cs : List Char) :
    contentOf (bs ++ cs) =
      (contentOf cs).map (List.map fun x => (indentation bs + x.1, x.2)) := by
  rw [contentOf, contentOf, tokensOf_blank_append hbs, indentation_blank_append hbs]
  split <;> rfl

/-! ## The margin -/

/-- The margin of a text is the same blanks in each of its lines that is not empty. -/
def SharedMargin (source : String) : Prop :=
  let ls := (Text.lines source.toList).map Text.trimEnd
  ∃ w, Blank w ∧ Text.byteLength w = Text.margin ls ∧ ∀ l ∈ ls, l ≠ [] → w <+: l

lemma byteLength_replicate (n : ℕ) (b : Char) :
    Text.byteLength (List.replicate n b) = n * b.utf8Size := by
  induction n with
  | zero => simp [Text.byteLength]
  | succ n ih => rw [List.replicate_succ, Text.byteLength, ih, Nat.succ_mul, Nat.add_comm]

/-- The margin is the least indentation of a line that is not empty, if there is one. -/
lemma margin_cases (ls : List (List Char)) :
    (∀ l ∈ ls, l = []) ∧ Text.margin ls = 0 ∨
      ∃ l₀ ∈ ls, l₀ ≠ [] ∧ Text.indentBytes l₀ = Text.margin ls ∧
        ∀ l ∈ ls, l ≠ [] → Text.margin ls ≤ Text.indentBytes l := by
  rw [Text.margin]
  cases hmin : ((ls.filter fun l => !l.isEmpty).map Text.indentBytes).min? with
  | none =>
    have hfilter := List.map_eq_nil_iff.1 (List.min?_eq_none_iff.1 hmin)
    exact .inl ⟨by simpa using hfilter, rfl⟩
  | some width =>
    obtain ⟨hmem, hleast⟩ := List.min?_eq_some_iff.1 hmin
    obtain ⟨l₀, hl₀, hwidth⟩ := List.mem_map.1 hmem
    obtain ⟨hmem₀, hne₀⟩ := List.mem_filter.1 hl₀
    refine .inr ⟨l₀, hmem₀, by simpa using hne₀, hwidth, fun l hl hne => ?_⟩
    exact hleast _ (List.mem_map_of_mem (List.mem_filter.2 ⟨hl, by simpa using hne⟩))

/-- Lines that are indented with the same character share their margin. -/
lemma sharedMargin_of_replicate {source : String} {b : Char}
    (h : (((Text.lines source.toList).map Text.trimEnd).all fun l =>
      (l.takeWhile Text.isBlank).all (· == b)) = true) : SharedMargin source := by
  simp only [List.all_eq_true, beq_iff_eq] at h
  have hblanks : ∀ l ∈ (Text.lines source.toList).map Text.trimEnd,
      l.takeWhile Text.isBlank = List.replicate (l.takeWhile Text.isBlank).length b :=
    fun l hl => List.eq_replicate_iff.2 ⟨rfl, h l hl⟩
  unfold SharedMargin
  generalize (Text.lines source.toList).map Text.trimEnd = ls at hblanks
  obtain ⟨hempty, hmargin⟩ | ⟨l₀, hl₀, -, hmargin, hleast⟩ := margin_cases ls
  · exact ⟨[], by simp [Blank], hmargin.symm, fun l hl hne => absurd (hempty l hl) hne⟩
  refine ⟨l₀.takeWhile Text.isBlank, fun c hc => List.mem_takeWhile_imp hc, hmargin,
    fun l hl hne => ?_⟩
  -- no line has fewer blanks than the one with the least margin
  have hle : Text.indentBytes l₀ ≤ Text.indentBytes l := hmargin ▸ hleast l hl hne
  rw [Text.indentBytes, Text.indentBytes, hblanks l₀ hl₀, hblanks l hl, byteLength_replicate,
    byteLength_replicate] at hle
  refine List.IsPrefix.trans ?_ (List.takeWhile_prefix Text.isBlank)
  obtain ⟨d, hd⟩ := Nat.exists_eq_add_of_le (Nat.le_of_mul_le_mul_right hle b.utf8Size_pos)
  rw [hblanks l₀ hl₀, hblanks l hl, hd, List.replicate_add]
  exact List.prefix_append _ _

lemma dropBytes?_append (w l : List Char) :
    Text.dropBytes? (Text.byteLength w) (w ++ l) = some l := by
  induction w with
  | nil => cases l <;> rfl
  | cons c w ih =>
    obtain ⟨k, hk⟩ : ∃ k, Text.byteLength (c :: w) = k + 1 :=
      ⟨c.utf8Size + Text.byteLength w - 1, by
        have hpos := c.utf8Size_pos
        rw [Text.byteLength]
        omega⟩
    rw [hk, List.cons_append, Text.dropBytes?, ← hk, Text.byteLength, if_pos (Nat.le_add_right _ _),
      Nat.add_sub_cancel_left, ih]

lemma withoutMargin_append (w l : List Char) :
    Text.withoutMargin (Text.byteLength w) (w ++ l) = l := by
  rw [Text.withoutMargin, dropBytes?_append, Option.getD_some]

lemma dropBytes?_suffix {l' : List Char} (h : Text.dropBytes? n cs = some l') : l' <:+ cs := by
  fun_induction Text.dropBytes? n cs with
  | case1 cs =>
    obtain rfl := Option.some.inj h
    exact List.suffix_rfl
  | case2 => cases h
  | case3 n c cs hle ih => exact (ih h).trans (List.suffix_cons c cs)
  | case4 => cases h

/-- Characters are taken from the start of a line only. -/
lemma withoutMargin_suffix (width : ℕ) (l : List Char) : Text.withoutMargin width l <:+ l := by
  rw [Text.withoutMargin]
  cases h : Text.dropBytes? width l with
  | none => exact List.dropWhile_suffix _
  | some l' => exact dropBytes?_suffix h

lemma withoutMargin_nil (width : ℕ) : Text.withoutMargin width [] = [] := by
  cases width <;> rfl

/-- The lines that are left of a text. -/
def dedentedLines (source : String) : List (List Char) :=
  let ls := (Text.lines source.toList).map Text.trimEnd
  Text.dropOuterEmpty (ls.map (Text.withoutMargin (Text.margin ls)))

/-- **The lines that are left of a script say the same**, each with less indentation. -/
lemma contents_dedentedLines {source : String} (h : SharedMargin source) :
    ∃ k, contents (Text.lines source.toList) =
      (contents (dedentedLines source)).map (List.map fun x => (k + x.1, x.2)) := by
  obtain ⟨w, hw, hlength, hprefix⟩ := h
  refine ⟨indentation w, ?_⟩
  rw [dedentedLines, contents_dropOuterEmpty]
  have htrim : contents (Text.lines source.toList) =
      contents ((Text.lines source.toList).map Text.trimEnd) := by
    rw [contents_map (f := Text.trimEnd) (g := id)]
    · simp
    · intro cs _
      simp [contentOf_trimEnd]
  rw [htrim]
  refine contents_map fun l hl => ?_
  by_cases hnil : l = []
  · rw [hnil, withoutMargin_nil, contentOf, tokensOf]
    rfl
  · obtain ⟨l', rfl⟩ := hprefix l hl hnil
    rw [← hlength, withoutMargin_append, contentOf_blank_append hw]

lemma getLast?_rdropWhile {α : Type} {p : α → Bool} {l : List α} {x : α}
    (h : (l.rdropWhile p).getLast? = some x) : p x = false := by
  have hne : l.rdropWhile p ≠ [] := by
    intro hnil
    simp [hnil] at h
  have hlast := List.rdropWhile_last_not p l hne
  rw [List.getLast?_eq_getLast_of_ne_nil hne] at h
  obtain rfl := Option.some.inj h
  simpa using hlast

lemma isLine_of_trimEnd {w l : List Char} (hcs : cs ∈ css) (hfeed : ∀ l ∈ css, '\n' ∉ l)
    (h : w ++ l = Text.trimEnd cs) : Text.IsLine l := by
  obtain ⟨bs, -, heq⟩ := exists_trimEnd cs
  refine ⟨fun hmem => hfeed cs hcs ?_, fun hlast => ?_⟩
  · rw [← heq, ← h]
    simp [hmem]
  · -- no blank is left at the end
    have hreturn : (Text.trimEnd cs).getLast? = some '\r' := by
      rw [← h, List.getLast?_append, hlast, Option.some_or]
    exact absurd (getLast?_rdropWhile hreturn) (by decide)

lemma getLast?_dropOuterEmpty (css : List (List Char)) :
    (Text.dropOuterEmpty css).getLast? ≠ some [] := by
  intro hlast
  obtain ⟨pre, hpre⟩ : Text.dropOuterEmpty css <:+ css.rdropWhile List.isEmpty :=
    List.dropWhile_suffix _
  have hempty : (css.rdropWhile List.isEmpty).getLast? = some [] := by
    rw [← hpre, List.getLast?_append, hlast, Option.some_or]
  exact absurd (getLast?_rdropWhile hempty) (by decide)

lemma dropOuterEmpty_subset (css : List (List Char)) : Text.dropOuterEmpty css ⊆ css := by
  have hend : css.rdropWhile List.isEmpty ⊆ css := (List.rdropWhile_prefix _ css).subset
  exact List.Subset.trans (List.dropWhile_sublist _).subset hend

/-- The lines that are left come back when they are joined. -/
lemma lines_dedented (source : String) :
    Text.lines (Program.dedented source).toList = dedentedLines source := by
  rw [Program.dedented, String.toList_ofList, Text.dedent]
  refine Text.lines_joinLines (fun l hl => ?_) (getLast?_dropOuterEmpty _)
  obtain ⟨t, ht, rfl⟩ := List.mem_map.1 (dropOuterEmpty_subset _ hl)
  obtain ⟨cs, hcs, rfl⟩ := List.mem_map.1 ht
  obtain ⟨w, hw⟩ := withoutMargin_suffix
    (Text.margin ((Text.lines source.toList).map Text.trimEnd)) (Text.trimEnd cs)
  exact isLine_of_trimEnd hcs (fun _ => Text.feed_not_mem_lines) hw

/-! ## Definitions -/

/-- Lines with the same tokens, all of them indented deeper. -/
lemma forall₂_shifted_map (k : ℕ) (xs : List (ℕ × List Token)) :
    List.Forall₂ (Shifted k 0) xs (xs.map fun x => (k + x.1, x.2)) := by
  rw [List.forall₂_map_right_iff, List.forall₂_same]
  exact fun x _ => ⟨(Nat.zero_add _).symm, .same x.2⟩

/-- A script with one margin and the script without it have the same functions. -/
lemma parse_dedented_iff {source : String} {fs : List FunctionDef} (hmargin : SharedMargin source) :
    parse (Program.dedented source) = .ok fs ↔ parse source = .ok fs := by
  obtain ⟨k, hcontents⟩ := contents_dedentedLines hmargin
  rw [← lines_dedented] at hcontents
  constructor
  · refine parse_shifted k 0 fun xs hxs => ⟨_, ?_, forall₂_shifted_map k xs⟩
    rw [hcontents, hxs, Option.map_some]
  · refine parse_shifted 0 k fun xs hxs => ?_
    rw [hxs, eq_comm, Option.map_eq_some_iff] at hcontents
    obtain ⟨xs', hxs', rfl⟩ := hcontents
    exact ⟨xs', hxs', ((forall₂_shifted_map k xs').imp fun _ _ => Shifted.symm).flip⟩

/-- **A script without its margin has the same functions.** -/
theorem parse_dedented {source : String} {fs : List FunctionDef} (hmargin : SharedMargin source)
    (h : parse source = .ok fs) : parse (Program.dedented source) = .ok fs :=
  (parse_dedented_iff hmargin).2 h

end Dataflow.Script

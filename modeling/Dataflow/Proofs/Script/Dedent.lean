import Dataflow.Proofs.Script.Margin
import Dataflow.Proofs.Script.RoundTrip

/-!
# Scripts that have lost their margin stay as they are

The lines that are left of a text have no blanks at their ends, no empty lines around them, and one
of them is not indented, so that there is nothing left to take away (`dedentedLines_dedented`).
Spaces are all alike, and a script whose lines are indented with spaces has one margin
(`SpaceIndented.sharedMargin`).
-/

namespace Dataflow.Script

variable {l cs : List Char} {ls css : List (List Char)}

/-! ## What is left of a text -/

lemma trimEnd_of_suffix (h : l <:+ Text.trimEnd cs) : Text.trimEnd l = l := by
  refine List.rdropWhile_eq_self_iff.2 fun hne => ?_
  have hlast : (Text.trimEnd cs).getLast? = some (l.getLast hne) := by
    obtain ⟨w, hw⟩ := h
    rw [← hw, List.getLast?_append, List.getLast?_eq_getLast_of_ne_nil hne, Option.some_or]
  simpa using getLast?_rdropWhile hlast

lemma mem_dropWhile {α : Type} {p : α → Bool} {a : α} {l : List α} (h : a ∈ l)
    (hp : p a = false) : a ∈ l.dropWhile p := by
  rw [← List.takeWhile_append_dropWhile (p := p) (l := l)] at h
  rcases List.mem_append.1 h with h | h
  · simp [List.mem_takeWhile_imp h] at hp
  · exact h

lemma mem_dropOuterEmpty (h : l ∈ css) (hne : l ≠ []) : l ∈ Text.dropOuterEmpty css := by
  have hl : l.isEmpty = false := by simpa using hne
  have hend : l ∈ css.rdropWhile List.isEmpty := by
    rw [List.rdropWhile, List.mem_reverse]
    exact mem_dropWhile (List.mem_reverse.2 h) hl
  exact mem_dropWhile hend hl

lemma dropOuterEmpty_idem (css : List (List Char)) :
    Text.dropOuterEmpty (Text.dropOuterEmpty css) = Text.dropOuterEmpty css := by
  have hend : (Text.dropOuterEmpty css).rdropWhile List.isEmpty = Text.dropOuterEmpty css := by
    refine List.rdropWhile_eq_self_iff.2 fun hne hempty => getLast?_dropOuterEmpty css ?_
    rw [List.getLast?_eq_getLast_of_ne_nil hne, List.isEmpty_iff.1 hempty]
  calc Text.dropOuterEmpty (Text.dropOuterEmpty css)
      = ((Text.dropOuterEmpty css).rdropWhile List.isEmpty).dropWhile List.isEmpty := rfl
    _ = (Text.dropOuterEmpty css).dropWhile List.isEmpty := by rw [hend]
    _ = Text.dropOuterEmpty css := List.dropWhile_idempotent _ _

lemma withoutMargin_zero (l : List Char) : Text.withoutMargin 0 l = l := by
  cases l <;> rfl

lemma withoutMargin_indentBytes (l : List Char) :
    Text.withoutMargin (Text.indentBytes l) l = l.dropWhile Text.isBlank := by
  have hsplit := List.takeWhile_append_dropWhile (p := Text.isBlank) (l := l)
  have hdrop := withoutMargin_append (l.takeWhile Text.isBlank) (l.dropWhile Text.isBlank)
  rwa [hsplit] at hdrop

lemma indentBytes_dropWhile (l : List Char) :
    Text.indentBytes (l.dropWhile Text.isBlank) = 0 := by
  have hnone : (l.dropWhile Text.isBlank).takeWhile Text.isBlank = [] := by
    rw [List.takeWhile_eq_nil_iff]
    exact fun hlt => by simpa using List.dropWhile_get_zero_not _ l hlt
  rw [Text.indentBytes, hnone]
  rfl

/-- Of the lines that are left one is not indented. -/
lemma margin_dropOuterEmpty (hls : ∀ l ∈ ls, Text.trimEnd l = l) :
    Text.margin (Text.dropOuterEmpty (ls.map (Text.withoutMargin (Text.margin ls)))) = 0 := by
  obtain ⟨-, hmargin⟩ | ⟨l, hl, hne, -, hleast⟩ := margin_cases
    (Text.dropOuterEmpty (ls.map (Text.withoutMargin (Text.margin ls))))
  · exact hmargin
  obtain ⟨hempty, -⟩ | ⟨l₀, hl₀, hne₀, hmargin, -⟩ := margin_cases ls
  · obtain ⟨l', hl', rfl⟩ := List.mem_map.1 (dropOuterEmpty_subset _ hl)
    rw [hempty l' hl', withoutMargin_nil] at hne
    exact absurd rfl hne
  · have hleft : Text.withoutMargin (Text.margin ls) l₀ = l₀.dropWhile Text.isBlank := by
      rw [← hmargin, withoutMargin_indentBytes]
    have hne' : l₀.dropWhile Text.isBlank ≠ [] := by
      intro hnil
      rw [List.dropWhile_eq_nil_iff] at hnil
      exact hne₀ ((hls l₀ hl₀).symm.trans (List.rdropWhile_eq_nil_iff.2 hnil))
    have hmem := mem_dropOuterEmpty (List.mem_map_of_mem (f := Text.withoutMargin _) hl₀)
      (hleft ▸ hne')
    have hle := hleast _ hmem (hleft ▸ hne')
    rwa [hleft, indentBytes_dropWhile, Nat.le_zero] at hle

lemma trimEnd_of_mem_dedentedLines {source : String} (h : l ∈ dedentedLines source) :
    Text.trimEnd l = l := by
  obtain ⟨l', hl', rfl⟩ := List.mem_map.1 (dropOuterEmpty_subset _ h)
  obtain ⟨cs, -, rfl⟩ := List.mem_map.1 hl'
  exact trimEnd_of_suffix (withoutMargin_suffix _ _)

lemma margin_dedentedLines (source : String) : Text.margin (dedentedLines source) = 0 := by
  refine margin_dropOuterEmpty fun l hl => ?_
  obtain ⟨cs, -, rfl⟩ := List.mem_map.1 hl
  exact trimEnd_of_suffix List.suffix_rfl

lemma dedentedLines_dedented (source : String) :
    dedentedLines (Program.dedented source) = dedentedLines source := by
  have htrim : (dedentedLines source).map Text.trimEnd = dedentedLines source :=
    (List.map_congr_left fun _ => trimEnd_of_mem_dedentedLines).trans (List.map_id' _)
  have hmargin : (dedentedLines source).map (Text.withoutMargin 0) = dedentedLines source :=
    List.map_id'' withoutMargin_zero _
  calc dedentedLines (Program.dedented source)
      = Text.dropOuterEmpty (dedentedLines source) := by
        simp only [dedentedLines.eq_def (Program.dedented source), lines_dedented, htrim,
          margin_dedentedLines, hmargin]
    _ = dedentedLines source := dropOuterEmpty_idem _

lemma dedented_dedented (source : String) :
    Program.dedented (Program.dedented source) = Program.dedented source :=
  congrArg (fun ls => String.ofList (Text.joinLines ls)) (dedentedLines_dedented source)

/-! ## Spaces -/

/-- The lines that are not blank are indented with spaces. -/
def SpaceIndented (source : String) : Prop :=
  ∀ cs ∈ Text.lines source.toList, ¬ Blank cs → ∀ c ∈ cs.takeWhile Text.isBlank, c = ' '

instance (source : String) : Decidable (SpaceIndented source) :=
  decidable_of_iff ((Text.lines source.toList).all fun cs =>
      cs.all Text.isBlank || (cs.takeWhile Text.isBlank).all (· == ' ')) <| by
    simp only [SpaceIndented, Blank, List.all_eq_true, Bool.or_eq_true, beq_iff_eq,
      or_iff_not_imp_left]

lemma takeWhile_trimEnd_subset (cs : List Char) :
    (Text.trimEnd cs).takeWhile Text.isBlank ⊆ cs.takeWhile Text.isBlank := by
  obtain ⟨bs, -, heq⟩ := exists_trimEnd cs
  conv_rhs => rw [← heq, List.takeWhile_append]
  split
  · exact List.Subset.trans (List.takeWhile_prefix _).subset (List.subset_append_left _ _)
  · exact List.Subset.refl _

lemma SpaceIndented.sharedMargin {source : String} (h : SpaceIndented source) :
    SharedMargin source := by
  refine sharedMargin_of_replicate (b := ' ') ?_
  simp only [List.all_eq_true, beq_iff_eq]
  intro l hl c hc
  obtain ⟨cs, hcs, rfl⟩ := List.mem_map.1 hl
  refine h cs hcs (fun hblank => ?_) c (takeWhile_trimEnd_subset cs hc)
  have hnil : Text.trimEnd cs = [] := List.rdropWhile_eq_nil_iff.2 hblank
  simp [hnil] at hc

/-- **A text that has lost its margin stays as it is**, and a script that is indented with spaces
has the same functions without its margin. -/
theorem dedented_stable (source : String) :
    Program.dedented (Program.dedented source) = Program.dedented source ∧
      (SpaceIndented source → ∀ fs : List FunctionDef,
        parse (Program.dedented source) = .ok fs ↔ parse source = .ok fs) :=
  ⟨dedented_dedented source, fun h _ => parse_dedented_iff h.sharedMargin⟩

/-- A function that gives its argument. -/
def echo : FunctionDef := ⟨"f", [⟨"x", none⟩], [.return (some (.variable "x"))]⟩

/-- The text of `echo`, indented with spaces, below a blank line with a tab in it. -/
def indentedEcho : String := "\t\n  def f ( x ) :  \n      return x\n\n"

lemma parse_dedented_indentedEcho : parse (Program.dedented indentedEcho) = .ok [echo] := by
  have hwritable : ∀ f ∈ [echo], f.Writable := by
    simp only [List.forall_mem_singleton, echo]
    refine ⟨by decide, ?_, ?_⟩
    · simp
      decide
    · simp [Statement.Writable, Expr.Writable]
      decide
  have hlines : Text.lines (Program.dedented indentedEcho).toList =
      Text.lines (render [echo]).toList := by
    decide +kernel
  have hparse := parse_of_renders hwritable (renders_render hwritable)
  rwa [parse, linesOf, ← hlines] at hparse

theorem dedented_stable_indentedEcho :
    Program.dedented indentedEcho = "def f ( x ) :\n    return x" ∧
      Program.dedented "def f ( x ) :\n    return x" = "def f ( x ) :\n    return x" ∧
      SpaceIndented indentedEcho ∧ parse indentedEcho = .ok [echo] := by
  have hspaces : SpaceIndented indentedEcho := by decide +kernel
  have htext : Program.dedented indentedEcho = "def f ( x ) :\n    return x" := by decide +kernel
  obtain ⟨hstable, hmeaning⟩ := dedented_stable indentedEcho
  rw [htext] at hstable
  exact ⟨htext, hstable, hspaces, (hmeaning hspaces _).1 parse_dedented_indentedEcho⟩

end Dataflow.Script

import Mathlib.Data.List.Basic
import Dataflow.Text.Lines

/-!
# Cutting a text into lines

A line that is written down is cut out again, if it has no line feed in it and no carriage return
at its end (`IsLine`).  Lines that are joined come back in the same way, except that an empty line
at the very end is lost (`lines_joinLines`).
-/

namespace Dataflow.Text

variable {l cs : List Char} {ls : List (List Char)}

/-- A line that the end of a line can stand behind. -/
def IsLine (l : List Char) : Prop := '\n' ∉ l ∧ l.getLast? ≠ some '\r'

lemma IsLine.tail {c : Char} (h : IsLine (c :: l)) : IsLine l := by
  refine ⟨fun hmem => h.1 (List.mem_cons_of_mem c hmem), fun hlast => h.2 ?_⟩
  cases l with
  | nil => simp at hlast
  | cons d l => rw [List.getLast?_cons_cons, hlast]

lemma lines_append (h : IsLine l) (rest : List Char) :
    lines (l ++ '\n' :: rest) = l :: lines rest := by
  induction l with
  | nil => rw [List.nil_append, lines]
  | cons c l ih =>
    rw [List.cons_append, lines, ih h.tail]
    · rintro rfl
      exact h.1 List.mem_cons_self
    · rintro rest' rfl hrest
      cases l with
      | nil => exact h.2 rfl
      | cons d l =>
        obtain ⟨rfl, -⟩ := List.cons.inj hrest
        exact h.1 (by simp)

lemma lines_of_isLine (h : IsLine l) (hne : l ≠ []) : lines l = [l] := by
  induction l with
  | nil => exact absurd rfl hne
  | cons c l ih =>
    have hfeed : c ≠ '\n' := by
      rintro rfl
      exact h.1 List.mem_cons_self
    have hreturn : ∀ rest, c = '\r' → l ≠ '\n' :: rest := by
      rintro rest - rfl
      exact h.1 (by simp)
    cases l with
    | nil =>
      rw [lines]
      · rfl
      · exact hfeed
      · exact hreturn
    | cons d l =>
      rw [lines, ih h.tail (List.cons_ne_nil d l)]
      · exact hfeed
      · exact hreturn

/-- **Lines that are joined come back**, if the last of them is not empty. -/
theorem lines_joinLines (h : ∀ l ∈ ls, IsLine l) (hlast : ls.getLast? ≠ some []) :
    lines (joinLines ls) = ls := by
  induction ls with
  | nil => rfl
  | cons l ls ih =>
    have hl := h l List.mem_cons_self
    cases ls with
    | nil =>
      have hne : l ≠ [] := by
        rintro rfl
        exact hlast rfl
      simpa [joinLines] using lines_of_isLine hl hne
    | cons l' ls =>
      rw [List.getLast?_cons_cons] at hlast
      have hmore := ih (fun k hk => h k (List.mem_cons_of_mem _ hk)) hlast
      have hjoin : joinLines (l :: l' :: ls) = l ++ '\n' :: joinLines (l' :: ls) := by
        simp [joinLines]
      rw [hjoin, lines_append hl, hmore]

lemma feed_not_mem_lines (h : l ∈ lines cs) : '\n' ∉ l := by
  fun_induction lines cs generalizing l with
  | case1 => simp at h
  | case2 rest ih =>
    rcases List.mem_cons.1 h with rfl | h
    · simp
    · exact ih h
  | case3 rest ih =>
    rcases List.mem_cons.1 h with rfl | h
    · simp
    · exact ih h
  | case4 c rest hfeed hreturn hlines ih =>
    obtain rfl := List.mem_singleton.1 h
    simpa using Ne.symm hfeed
  | case5 c rest hfeed hreturn line more hlines ih =>
    simp only [hlines, List.mem_cons] at ih h
    rcases h with rfl | h
    · simpa using ⟨Ne.symm hfeed, ih (.inl rfl)⟩
    · exact ih (.inr h)

end Dataflow.Text

import Mathlib.Data.Nat.Notation
import Mathlib.Data.List.Basic
import Dataflow.Script.Token

/-!
# What the lines of a script say

A line says its indentation and its tokens, or nothing if it has no tokens.  The numbers of the
lines matter for errors only, so that what the lines say (`contents`) settles whether they can be
read, and as which lines.
-/

namespace Dataflow.Script

variable {n m : ℕ} {cs : List Char} {css : List (List Char)} {ts : List Token}

/-- The indentation and the tokens of a line that has tokens. -/
def contentOf (cs : List Char) : Option (List (ℕ × List Token)) :=
  match tokensOf 0 cs with
  | .ok [] => some []
  | .ok ts => some [(indentation cs, ts)]
  | .error _ => none

/-- The indentations and the tokens of the lines that have tokens. -/
def contents : List (List Char) → Option (List (ℕ × List Token))
  | [] => some []
  | cs :: css => do return (← contentOf cs) ++ (← contents css)

/-- A line without its number. -/
def Line.content (l : Line) : ℕ × List Token := (l.indent, l.tokens)

/-- The number of a line matters for errors only. -/
lemma scanToken_line {c : Char} {cs : List Char}
    {x : Token × { r : List Char // r.length < (c :: cs).length }}
    (h : scanToken n c cs = .ok x) (m : ℕ) : scanToken m c cs = .ok x := by
  unfold scanToken at h ⊢
  split at h
  · split at h
    · simp_all
    · simp at h
  split at h
  · simp_all
  split at h
  · split at h
    · simp_all
    · simp at h
  · split at h
    · simp_all
    · simp at h

lemma tokensOf_line (h : tokensOf n cs = .ok ts) (m : ℕ) : tokensOf m cs = .ok ts := by
  fun_induction tokensOf n cs generalizing ts with
  | case1 => rwa [tokensOf]
  | case2 c cs hblank ih => rw [tokensOf, if_pos hblank, ih h]
  | case3 cs hblank => rwa [tokensOf, if_neg hblank, if_pos rfl]
  | case4 c cs hblank hcomment ih =>
    rw [tokensOf, if_neg hblank, if_neg hcomment]
    cases hscan : scanToken n c cs with
    | error e => simp [hscan, bind, Except.bind] at h
    | ok x =>
      obtain ⟨t, r⟩ := x
      rw [scanToken_line hscan m]
      simp only [hscan, bind, Except.bind] at h ⊢
      cases hrest : tokensOf n r.1 with
      | error e => simp [hrest] at h
      | ok ts' => simpa [ih r hrest, hrest] using h

/-! ## Reading them -/

lemma contentOf_of_lineOf {o : Option Line} (h : lineOf n cs = .ok o) :
    contentOf cs = some (o.toList.map Line.content) := by
  rw [lineOf] at h
  cases htokens : tokensOf n cs with
  | error e => simp [htokens, bind, Except.bind] at h
  | ok ts =>
    rw [contentOf, tokensOf_line htokens 0]
    simp only [htokens, bind, Except.bind] at h
    cases ts with
    | nil =>
      obtain rfl := Except.ok.inj h
      rfl
    | cons t ts =>
      obtain rfl := Except.ok.inj h
      rfl

lemma lineOf_of_contentOf {l : List (ℕ × List Token)} (h : contentOf cs = some l) (n : ℕ) :
    ∃ o, lineOf n cs = .ok o ∧ o.toList.map Line.content = l := by
  rw [contentOf] at h
  cases htokens : tokensOf 0 cs with
  | error e => simp [htokens] at h
  | ok ts =>
    rw [lineOf, tokensOf_line htokens n]
    simp only [htokens] at h
    cases ts with
    | nil => exact ⟨none, rfl, Option.some.inj h⟩
    | cons t ts => exact ⟨some ⟨n, indentation cs, t :: ts⟩, rfl, Option.some.inj h⟩

lemma contents_of_mapM {os : List (Option Line)}
    (h : ((css.zipIdx n).mapM fun (cs, number) => lineOf number cs) = .ok os) :
    contents css = some ((os.filterMap id).map Line.content) := by
  induction css generalizing n os with
  | nil =>
    obtain rfl := Except.ok.inj h
    rfl
  | cons cs css ih =>
    rw [List.zipIdx_cons, List.mapM_cons] at h
    cases hline : lineOf n cs with
    | error e => simp [hline, bind, Except.bind] at h
    | ok o =>
      cases hmore : (css.zipIdx (n + 1)).mapM fun (cs, number) => lineOf number cs with
      | error e => simp [hline, hmore, bind, Except.bind] at h
      | ok os' =>
        simp only [hline, hmore, bind, Except.bind] at h
        obtain rfl := Except.ok.inj h
        rw [contents, contentOf_of_lineOf hline, ih hmore]
        cases o <;> rfl

lemma mapM_of_contents {l : List (ℕ × List Token)} (h : contents css = some l) (n : ℕ) :
    ∃ os, ((css.zipIdx n).mapM fun (cs, number) => lineOf number cs) = .ok os ∧
      (os.filterMap id).map Line.content = l := by
  induction css generalizing n l with
  | nil =>
    obtain rfl := Option.some.inj h
    exact ⟨[], rfl, rfl⟩
  | cons cs css ih =>
    rw [contents] at h
    simp only [bind, Option.bind_eq_some_iff] at h
    obtain ⟨first, hfirst, more, hmore, hl⟩ := h
    obtain rfl := Option.some.inj hl
    obtain ⟨o, hline, ho⟩ := lineOf_of_contentOf hfirst n
    obtain ⟨os, hos, hlines⟩ := ih hmore (n + 1)
    refine ⟨o :: os, ?_, ?_⟩
    · rw [List.zipIdx_cons, List.mapM_cons]
      simp only [hline, hos]
      rfl
    · rw [← ho, ← hlines]
      cases o <;> rfl

lemma contents_of_linesOf {source : String} {ls : List Line} (h : linesOf source = .ok ls) :
    contents (Text.lines source.toList) = some (ls.map Line.content) := by
  rw [linesOf] at h
  cases hmap : ((Text.lines source.toList).zipIdx 1).mapM fun (cs, number) => lineOf number cs with
  | error e => simp [hmap, bind, Except.bind] at h
  | ok os =>
    simp only [hmap, bind, Except.bind] at h
    obtain rfl := Except.ok.inj h
    exact contents_of_mapM hmap

lemma linesOf_of_contents {source : String} {l : List (ℕ × List Token)}
    (h : contents (Text.lines source.toList) = some l) :
    ∃ ls, linesOf source = .ok ls ∧ ls.map Line.content = l := by
  obtain ⟨os, hos, hl⟩ := mapM_of_contents h 1
  refine ⟨os.filterMap id, ?_, hl⟩
  rw [linesOf, hos]
  rfl

end Dataflow.Script

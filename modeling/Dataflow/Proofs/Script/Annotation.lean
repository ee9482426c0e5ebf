import Dataflow.Proofs.Script.Definition
import Dataflow.Proofs.Script.Locality
import Dataflow.Proofs.Script.Restating
import Dataflow.Proofs.Script.RoundTrip

/-!
# Annotations say nothing

A header may have annotations behind the names of its parameters, and one behind its closing
parenthesis.  A line with such annotations put in gives the same header (`header_annotated`), and so
the functions of a script are the same with them as without (`parse_annotated`).
-/

namespace Dataflow.Script

variable {depth depth' : ℕ} {name : String} {ts ts' rest rest' : List Token} {t : Token}
  {s : Symbol} {p : Param}

/-! ## Annotations -/

/-- The number of open brackets behind a token of an annotation, if the token can stand there: no
bracket is closed that is not open, and no sign that ends a parameter stands outside of brackets. -/
def depthAfter? : ℕ → Token → Option ℕ
  | depth, .symbol .openBracket => some (depth + 1)
  | depth, .symbol .openParen => some (depth + 1)
  | depth + 1, .symbol .closeBracket => some depth
  | depth + 1, .symbol .closeParen => some depth
  | 0, .symbol .closeBracket => none
  | 0, .symbol .closeParen => none
  | 0, .symbol .comma => none
  | 0, .symbol .assign => none
  | depth, _ => some depth

/-- The tokens of an annotation, with all of its brackets closed. -/
def IsTyping (ts : List Token) : Prop := ts.foldlM depthAfter? 0 = some 0

instance (ts : List Token) : Decidable (IsTyping ts) :=
  inferInstanceAs (Decidable (ts.foldlM depthAfter? 0 = some 0))

/-- What can be put in behind the name of a parameter. -/
def IsAnnotation (ts : List Token) : Prop :=
  ts = [] ∨ ∃ ts', ts = .symbol .colon :: ts' ∧ IsTyping ts'

/-- What can be put in behind the closing parenthesis. -/
def IsResultAnnotation (ts : List Token) : Prop :=
  ts = [] ∨ ∃ ts', ts = .symbol .minus :: .symbol .greater :: ts' ∧ .symbol .colon ∉ ts'

lemma skipTyping_cons (h : depthAfter? depth t = some depth') (rest : List Token) :
    skipTyping depth (t :: rest) = skipTyping depth' rest := by
  unfold depthAfter? at h
  split at h <;> cases h <;> rw [skipTyping] <;> simp_all

lemma skipTyping_append (h : ts.foldlM depthAfter? depth = some depth') (rest : List Token) :
    skipTyping depth (ts ++ rest) = skipTyping depth' rest := by
  induction ts generalizing depth with
  | nil =>
    obtain rfl := Option.some.inj h
    rfl
  | cons t ts ih =>
    rw [List.foldlM_cons, Option.bind_eq_bind, Option.bind_eq_some_iff] at h
    obtain ⟨depth'', ht, hts⟩ := h
    rw [List.cons_append, skipTyping_cons ht, ih hts]

/-! ## Parameters -/

/-- The sign behind a parameter ends an annotation as well. -/
lemma skipTyping_eq_typing {d : Option Expr} (hs : s = .comma ∨ s = .closeParen)
    (h : (defaultValue (typing ts).1).Gives d (.symbol s :: rest)) :
    skipTyping 0 ts = (typing ts).1 := by
  by_cases hcolon : HeadFree (· = .symbol .colon) ts
  · rw [typing_of_headFree hcolon] at h ⊢
    obtain ⟨-, rfl, -⟩ | ⟨ts', e, rfl, -⟩ := defaultValue_inv h
    · rcases hs with rfl | rfl <;> rw [skipTyping]
    · rw [skipTyping]
  · obtain ⟨ts', rfl⟩ := exists_of_not_headFree hcolon
    exact skipTyping_cons rfl ts'

/-- A parameter with an annotation put in behind its name, and other tokens behind it. -/
lemma param_annotated {ann : List Token} (hs : s = .comma ∨ s = .closeParen)
    (h : (param (.word name :: (ts ++ .symbol s :: rest))).Gives p (.symbol s :: rest))
    (hann : IsAnnotation ann) (rest' : List Token) :
    (param (.word name :: (ann ++ (ts ++ .symbol s :: rest')))).Gives p
      (.symbol s :: rest') := by
  have hreplaced := (param_local _).replace (u := .word name :: ts) h rest'
  obtain rfl | ⟨ts', rfl, hts'⟩ := hann
  · exact hreplaced
  obtain ⟨ts₁, heq, hdefault⟩ := param_inv hreplaced
  obtain ⟨⟨rfl⟩, rfl⟩ := List.cons.inj heq
  refine param_named ?_
  have hskip : (typing (.symbol .colon :: ts' ++ (ts ++ .symbol s :: rest'))).1 =
      (typing (ts ++ .symbol s :: rest')).1 :=
    (skipTyping_append hts' _).trans (skipTyping_eq_typing hs hdefault)
  rw [hskip]
  exact hdefault

/-- Two lists of tokens behind the opening parenthesis of a header, or behind a comma in it.  In
the second annotations are put in behind names of parameters and behind the closing parenthesis. -/
inductive Annotated : List Token → List Token → Prop where
  | close {result rest : List Token} (hresult : IsResultAnnotation result) :
      Annotated (.symbol .closeParen :: rest) (.symbol .closeParen :: (result ++ rest))
  | last {name : String} {ann result ts rest : List Token} {p : Param}
      (hp : (param (.word name :: (ts ++ .symbol .closeParen :: rest))).Gives p
        (.symbol .closeParen :: rest))
      (hann : IsAnnotation ann) (hresult : IsResultAnnotation result) :
      Annotated (.word name :: (ts ++ .symbol .closeParen :: rest))
        (.word name :: (ann ++ (ts ++ .symbol .closeParen :: (result ++ rest))))
  | more {name : String} {ann ts rest rest' : List Token} {p : Param}
      (hp : (param (.word name :: (ts ++ .symbol .comma :: rest))).Gives p
        (.symbol .comma :: rest))
      (hann : IsAnnotation ann) (hmore : Annotated rest rest') :
      Annotated (.word name :: (ts ++ .symbol .comma :: rest))
        (.word name :: (ann ++ (ts ++ .symbol .comma :: rest')))

/-- The parameters stay the same, and only the annotation of the result is left. -/
lemma params_annotated {l : List Param} (h : Annotated ts ts')
    (hparams : (params ts).Gives l rest) :
    ∃ result, IsResultAnnotation result ∧ (params ts').Gives l (result ++ rest) := by
  induction h generalizing l with
  | @close result rest₁ hresult =>
    obtain ⟨rfl, heq⟩ | ⟨hfree, -⟩ := params_inv hparams
    · cases heq
      exact ⟨result, hresult, params_nil _⟩
    · exact absurd rfl (hfree _ rfl)
  | @last name ann result ts rest₁ p hp hann hresult =>
    obtain ⟨-, heq⟩ | ⟨-, p', _, hp', hrest⟩ := params_inv hparams
    · cases heq
    obtain ⟨rfl, rfl⟩ := hp.unique hp'
    obtain ⟨_, _, heq, -⟩ | ⟨heq, rfl⟩ := hrest <;> cases heq
    exact ⟨result, hresult, params_last (by simp [HeadFree])
      (param_annotated (.inr rfl) hp hann _)⟩
  | @more name ann ts rest₁ rest' p hp hann _ ih =>
    obtain ⟨-, heq⟩ | ⟨-, p', _, hp', hrest⟩ := params_inv hparams
    · cases heq
    obtain ⟨rfl, rfl⟩ := hp.unique hp'
    obtain ⟨_, l', heq, rfl, hl'⟩ | ⟨heq, -⟩ := hrest <;> cases heq
    obtain ⟨result, hresult, hmore⟩ := ih hl'
    exact ⟨result, hresult, params_more (by simp [HeadFree])
      (param_annotated (.inl rfl) hp hann _) hmore⟩

lemma resultTyping_annotated {result : List Token} (hresult : IsResultAnnotation result)
    (h : resultTyping rest = .ok (.symbol .colon :: rest')) :
    resultTyping (result ++ rest) = .ok (.symbol .colon :: rest') := by
  obtain rfl | ⟨ts, rfl, hts⟩ := hresult
  · exact h
  have hskip : (ts ++ rest).dropWhile (· ≠ .symbol .colon) =
      rest.dropWhile (· ≠ .symbol .colon) := by
    refine List.dropWhile_append_of_pos fun t ht => decide_eq_true ?_
    rintro rfl
    exact hts ht
  have hrest : rest.dropWhile (· ≠ .symbol .colon) = .symbol .colon :: rest' := by
    obtain ⟨rfl, -⟩ | ⟨ts', rfl, hts'⟩ := resultTyping_inv h
    · simp
    · simp [hts']
  rw [← hrest, ← hskip]
  rfl

/-- **Annotations say nothing**: a header with annotations put in gives the same. -/
theorem header_annotated {f : FunctionDef} (h : Annotated ts ts')
    (hheader : header (.word name :: .symbol .openParen :: ts) = .ok f) :
    header (.word name :: .symbol .openParen :: ts') = .ok f := by
  obtain ⟨_, _, l, rest, rest', heq, hparams, hresult⟩ := header_inv hheader
  cases heq
  obtain ⟨result, hann, hparams'⟩ := params_annotated h hparams
  rw [header_eq hparams' (resultTyping_annotated hann hresult), ← header_eq hparams hresult,
    hheader]

/-! ## Scripts -/

/-- Two lines of a script.  The second is the first, or a header like the first with annotations put
in. -/
inductive LineAnnotated : List Char → List Char → Prop where
  | same (cs : List Char) : LineAnnotated cs cs
  | header {cs cs' : List Char} {name : String} {ts ts' : List Token} {f : FunctionDef}
      (htokens : tokensOf 0 cs = .ok (.word "def" :: .word name :: .symbol .openParen :: ts))
      (htokens' : tokensOf 0 cs' = .ok (.word "def" :: .word name :: .symbol .openParen :: ts'))
      (hindent : indentation cs = indentation cs')
      (hheader : header (.word name :: .symbol .openParen :: ts) = .ok f)
      (hannotated : Annotated ts ts') : LineAnnotated cs cs'

lemma contentOf_annotated {cs cs' : List Char} {xs : List (ℕ × List Token)}
    (h : LineAnnotated cs cs') (hxs : contentOf cs = some xs) :
    ∃ xs', contentOf cs' = some xs' ∧ List.Forall₂ (Shifted 0 0) xs xs' := by
  cases h with
  | same => exact ⟨xs, hxs, List.forall₂_same.2 fun x _ => ⟨rfl, .same x.2⟩⟩
  | header htokens htokens' hindent hheader hannotated =>
    rw [contentOf, htokens] at hxs
    obtain rfl := Option.some.inj hxs
    refine ⟨_, by rw [contentOf, htokens'], .cons ⟨congrArg (0 + ·) hindent, ?_⟩ .nil⟩
    exact .defining hheader (header_annotated hannotated hheader)

lemma contents_annotated {css css' : List (List Char)} {xs : List (ℕ × List Token)}
    (h : List.Forall₂ LineAnnotated css css') (hxs : contents css = some xs) :
    ∃ xs', contents css' = some xs' ∧ List.Forall₂ (Shifted 0 0) xs xs' := by
  induction h generalizing xs with
  | nil =>
    obtain rfl := Option.some.inj hxs
    exact ⟨[], rfl, .nil⟩
  | cons hline _ ih =>
    simp only [contents, Option.bind_eq_bind, Option.bind_eq_some_iff] at hxs
    obtain ⟨first, hfirst, more, hmore, hxs⟩ := hxs
    obtain rfl := Option.some.inj hxs
    obtain ⟨first', hfirst', hshifted⟩ := contentOf_annotated hline hfirst
    obtain ⟨more', hmore', hshifted'⟩ := ih hmore
    exact ⟨first' ++ more', by simp [contents, hfirst', hmore'], List.rel_append hshifted hshifted'⟩

/-- **Annotations are erased**: a script that can be read has the same functions with annotations
put in behind the parameters and the closing parentheses of its headers. -/
theorem parse_annotated {source source' : String} {fs : List FunctionDef}
    (h : List.Forall₂ LineAnnotated (Text.lines source.toList) (Text.lines source'.toList))
    (hparse : parse source = .ok fs) : parse source' = .ok fs :=
  parse_shifted 0 0 (fun _ hxs => contents_annotated h hxs) hparse

/-! ### A header with two parameters -/

/-- A function with a default. -/
def scaledBy : FunctionDef :=
  ⟨"scaled", [⟨"x", none⟩, ⟨"k", some (.negate (.literal (.int 2)))⟩],
    [.return (some (.arithmetic .multiply (.variable "x") (.variable "k")))]⟩

/-- The tokens of the default of `scaledBy`. -/
def scaledDefault : List Token := [.symbol .assign, .symbol .minus, .int 2]

/-- An annotation with a comma and a parenthesis in its brackets. -/
def dictTyping : List Token :=
  [.symbol .colon, .word "dict", .symbol .openBracket, .word "str", .symbol .comma,
    .symbol .openParen, .word "int", .symbol .closeParen, .symbol .closeBracket]

/-- An annotation of one word. -/
def floatTyping : List Token := [.symbol .colon, .word "float"]

/-- An annotation of a result. -/
def listResult : List Token :=
  [.symbol .minus, .symbol .greater, .word "list", .symbol .openBracket, .word "float",
    .symbol .closeBracket]

/-- The tokens of the header of `scaledBy` behind its opening parenthesis. -/
def scaledTokens : List Token :=
  .word "x" :: .symbol .comma :: .word "k" ::
    (scaledDefault ++ [.symbol .closeParen, .symbol .colon])

/-- The same with an annotation behind each parameter and behind the closing parenthesis. -/
def scaledAnnotatedTokens : List Token :=
  .word "x" :: (dictTyping ++ .symbol .comma :: .word "k" :: (floatTyping ++
    (scaledDefault ++ .symbol .closeParen :: (listResult ++ [.symbol .colon]))))

/-- The text of `scaledBy`, with annotations. -/
def annotatedScaled : String :=
  "def scaled ( x : dict [ str , ( int ) ] , k : float = - 2 ) - > list [ float ] :\n" ++
    "    return x * k\n"

lemma writable_scaledBy : ∀ f ∈ [scaledBy], f.Writable := by
  simp only [List.forall_mem_singleton, scaledBy]
  refine ⟨by decide, ?_, ?_⟩
  · simp [Expr.Writable]
    decide
  · simp [Statement.Writable, Expr.Writable]
    decide

lemma annotated_scaledTokens : Annotated scaledTokens scaledAnnotatedTokens := by
  have hsecond : (param (.word "k" :: (scaledDefault ++ .symbol .closeParen ::
      [.symbol .colon]))).Gives ⟨"k", some (.negate (.literal (.int 2)))⟩
        (.symbol .closeParen :: [.symbol .colon]) :=
    param_gives (p := ⟨"k", some (.negate (.literal (.int 2)))⟩) (by simp [Expr.Writable]; decide)
      (.inr rfl) [.symbol .colon]
  have hfirst : (param (.word "x" :: ([] ++ .symbol .comma :: scaledTokens.drop 2))).Gives
      ⟨"x", none⟩ (.symbol .comma :: scaledTokens.drop 2) :=
    param_gives (p := ⟨"x", none⟩) (by simp) (.inl rfl) (scaledTokens.drop 2)
  have hmore := Annotated.last hsecond (.inr ⟨_, rfl, by decide⟩ : IsAnnotation floatTyping)
    (.inr ⟨_, rfl, by simp⟩ : IsResultAnnotation listResult)
  exact Annotated.more hfirst (.inr ⟨_, rfl, by decide⟩ : IsAnnotation dictTyping) hmore

lemma spelled_of_all (h : (ts.all fun t => t.isPlain || t matches .symbol _) = true) :
    ∀ t ∈ ts, t.Spelled t.chars := by
  intro t ht
  have hplain := List.all_eq_true.1 h t ht
  cases t with
  | symbol s => exact .symbol s
  | _ => exact spelled_chars (by simpa using hplain)

theorem parse_annotated_scaled :
    render [scaledBy] = "def scaled ( x , k = - 2 ) :\n    return x * k\n" ∧
      parse annotatedScaled = .ok [scaledBy] := by
  refine ⟨by decide +kernel, parse_annotated ?_
    (parse_of_renders writable_scaledBy (renders_render writable_scaledBy))⟩
  have hlines : Text.lines (render [scaledBy]).toList =
      [lineChars scaledBy.headerTokens, "    return x * k".toList] := by
    decide +kernel
  have hlines' : Text.lines annotatedScaled.toList =
      [lineChars (.word "def" :: .word "scaled" :: .symbol .openParen :: scaledAnnotatedTokens),
        "    return x * k".toList] := by
    decide +kernel
  have hspelled : ∀ t ∈ Token.word "def" :: .word "scaled" :: .symbol .openParen ::
      scaledAnnotatedTokens, t.Spelled t.chars :=
    spelled_of_all (by decide +kernel)
  have hheader := header_headerTokens (writable_scaledBy scaledBy (by simp))
  rw [hlines, hlines']
  refine .cons (.header ?_ ?_ ?_ hheader annotated_scaledTokens) (.cons (.same _) .nil)
  · exact tokensOf_spells (spells_lineChars (spelled_header (writable_scaledBy _ (by simp)))) 0
  · exact tokensOf_spells (spells_lineChars hspelled) 0
  · decide +kernel

end Dataflow.Script

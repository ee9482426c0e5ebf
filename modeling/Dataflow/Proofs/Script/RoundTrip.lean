import Mathlib.Data.List.Forall2
import Dataflow.Proofs.Script.Definition
import Dataflow.Proofs.Script.Spelling
import Dataflow.Proofs.Text.Lines

/-!
# Scripts are read back

The text of a script has one line for the header of each function and one for each statement, and
the lines of a body are indented deeper than their header.  Between the lines there may be others
that are blank or hold comments only (`Lays`, `Listing`, `Renders`).  Of the many texts for the
same functions `render` is one.  From each of them the functions are read back
(`parse_renders`).
-/

namespace Dataflow.Script

/-! ## Bodies -/

/-- Lines that list functions: each has a line for its header, and below it, indented deeper, one
line for each of its statements. -/
inductive Listing : List FunctionDef → List Line → Prop where
  | nil : Listing [] []
  | cons {f : FunctionDef} {fs : List FunctionDef} {start : Line} {body rest : List Line}
    (hstart : start.tokens = f.headerTokens)
    (hbody : List.Forall₂ (fun s l => l.tokens = s.tokens ∧ start.indent < l.indent) f.body body)
    (hrest : ∀ l ∈ rest.head?, l.indent ≤ start.indent)
    (h : Listing fs rest) : Listing (f :: fs) (start :: (body ++ rest))

section Listing

variable {ss : List Statement} {fs : List FunctionDef} {body ls : List Line} {indent : ℕ}

lemma mapM_statement_body
    (h : List.Forall₂ (fun s l => l.tokens = s.tokens ∧ indent < l.indent) ss body)
    (hss : ∀ s ∈ ss, s.Writable) :
    (body.mapM fun l => atLine l.number (statement l.tokens)) = .ok ss := by
  induction h with
  | nil => rfl
  | @cons s l ss body hl _ ih =>
    have hs := statement_tokens (hss s List.mem_cons_self)
    have hbody := ih fun s' hs' => hss s' (List.mem_cons_of_mem _ hs')
    rw [List.mapM_cons, hl.1, hs, hbody]
    rfl

lemma indent_lt_of_body
    (h : List.Forall₂ (fun s l => l.tokens = s.tokens ∧ indent < l.indent) ss body) :
    ∀ l ∈ body, indent < l.indent := by
  induction h with
  | nil => simp
  | cons hl _ ih => exact List.forall_mem_cons.2 ⟨hl.2, ih⟩

/-- **The lines that list functions give these functions.** -/
theorem definitions_listing (h : Listing fs ls) (hfs : ∀ f ∈ fs, f.Writable) :
    definitions ls = .ok fs := by
  induction h with
  | nil => rw [definitions]
  | @cons f fs start body rest hstart hbody hrest _ ih =>
    have hf := hfs f List.mem_cons_self
    have hheader :
        atLine start.number (header f.headerTokens.tail) = .ok ⟨f.name, f.params, []⟩ := by
      rw [header_headerTokens hf]
      rfl
    have hstatements := mapM_statement_body hbody hf.statement
    have hmore := ih fun g hg => hfs g (List.mem_cons_of_mem _ hg)
    -- the lines below the header that are indented deeper are those of the body
    have hdeeper : ∀ l ∈ body, decide (start.indent < l.indent) = true := fun l hl =>
      decide_eq_true (indent_lt_of_body hbody l hl)
    have hends : ∀ l ∈ rest.head?, decide (start.indent < l.indent) = false := fun l hl =>
      decide_eq_false (Nat.not_lt.2 (hrest l hl))
    obtain ⟨htake, hdrop⟩ := takeWhile_dropWhile_append hdeeper hends
    have htokens : start.tokens = .word "def" :: f.headerTokens.tail := hstart
    rw [definitions]
    simp only [htokens, hheader, bind, Except.bind, htake, hdrop, hstatements, hmore]
    rfl

end Listing

/-! ## Lines -/

/-- The lines with tokens among the lines of a text, the first of which has the number `n`. -/
inductive Lays : ℕ → List Line → List (List Char) → Prop where
  | nil (n : ℕ) : Lays n [] []
  | blank {n : ℕ} {ls : List Line} {cs : List Char} {css : List (List Char)} (hcs : Spells [] cs)
    (h : Lays (n + 1) ls css) : Lays n ls (cs :: css)
  | line {n : ℕ} {ts : List Token} {ls : List Line} {cs : List Char} {css : List (List Char)}
    (hts : ts ≠ []) (hcs : Spells ts cs) (h : Lays (n + 1) ls css) :
    Lays n (⟨n, indentation cs, ts⟩ :: ls) (cs :: css)

/-- A text is a script of functions, one line for each header and for each statement. -/
def Renders (fs : List FunctionDef) (source : String) : Prop :=
  ∃ ls, Listing fs ls ∧ Lays 1 ls (Text.lines source.toList)

lemma mapM_lineOf {n : ℕ} {ls : List Line} {css : List (List Char)} (h : Lays n ls css) :
    ∃ os, ((css.zipIdx n).mapM fun (cs, number) => lineOf number cs) = .ok os ∧
      os.filterMap id = ls := by
  induction h with
  | nil n => exact ⟨[], rfl, rfl⟩
  | @blank n ls cs css hcs _ ih =>
    obtain ⟨os, hos, hls⟩ := ih
    refine ⟨none :: os, ?_, by simpa using hls⟩
    have hline : lineOf n cs = .ok none := by
      rw [lineOf, tokensOf_spells hcs n]
      rfl
    rw [List.zipIdx_cons, List.mapM_cons]
    simp only [hline, hos]
    rfl
  | @line n ts ls cs css hts hcs _ ih =>
    obtain ⟨os, hos, hls⟩ := ih
    refine ⟨some ⟨n, indentation cs, ts⟩ :: os, ?_, by simpa using hls⟩
    have hline : lineOf n cs = .ok (some ⟨n, indentation cs, ts⟩) := by
      rw [lineOf, tokensOf_spells hcs n]
      cases ts with
      | nil => exact absurd rfl hts
      | cons t ts => rfl
    rw [List.zipIdx_cons, List.mapM_cons]
    simp only [hline, hos]
    rfl

lemma linesOf_lays {source : String} {ls : List Line}
    (h : Lays 1 ls (Text.lines source.toList)) : linesOf source = .ok ls := by
  obtain ⟨os, hos, hls⟩ := mapM_lineOf h
  rw [linesOf, hos, ← hls]
  rfl

lemma parse_of_renders {fs : List FunctionDef} {source : String} (hfs : ∀ f ∈ fs, f.Writable)
    (h : Renders fs source) : parse source = .ok fs := by
  obtain ⟨ls, hlisting, hlays⟩ := h
  rw [parse, linesOf_lays hlays]
  exact definitions_listing hlisting hfs

/-! ## The plainest text -/

/-- How a character of a text is written between double quotes. -/
def escape : Char → List Char
  | '\n' => ['\\', 'n']
  | '\t' => ['\\', 't']
  | '\r' => ['\\', 'r']
  | '\x00' => ['\\', '0']
  | '"' => ['\\', '"']
  | '\\' => ['\\', '\\']
  | c => [c]

/-- A token as it is written.  Of the doubles there are no tokens to write. -/
def Token.chars : Token → List Char
  | int n => Nat.toDigits 10 n.toInt.toNat
  | float _ => []
  | text s => '"' :: (s.toList.flatMap escape ++ ['"'])
  | word name => name.toList
  | symbol s => s.text.toList

/-- Tokens with one blank between any two of them. -/
def lineChars : List Token → List Char
  | [] => []
  | [t] => t.chars
  | t :: t' :: ts => t.chars ++ ' ' :: lineChars (t' :: ts)

/-- The line of a statement of a body. -/
def Statement.line (s : Statement) : List Char := "    ".toList ++ lineChars s.tokens

/-- The lines of a definition. -/
def FunctionDef.lines (f : FunctionDef) : List (List Char) :=
  lineChars f.headerTokens :: f.body.map Statement.line

/-- A script of functions. -/
def render (fs : List FunctionDef) : String :=
  String.ofList ((fs.flatMap FunctionDef.lines).flatMap fun l => l ++ ['\n'])

/-! ### Its tokens -/

section Spelling

variable {t : Token} {ts : List Token} {cs : List Char}

lemma quoted_escape (s : List Char) : Quoted '"' s (s.flatMap escape) := by
  induction s with
  | nil => exact .nil
  | cons c s ih =>
    rw [List.flatMap_cons]
    unfold escape
    split
    · exact .escaped 'n' ih
    · exact .escaped 't' ih
    · exact .escaped 'r' ih
    · exact .escaped '0' ih
    · exact .escaped '"' ih
    · exact .escaped '\\' ih
    · exact .plain ‹_› ‹_› ih

lemma spelled_chars (h : t.isPlain = true) : t.Spelled t.chars := by
  cases t with
  | int n => exact .int (by simpa [Token.isPlain] using h)
  | float x => simp [Token.isPlain] at h
  | text s => exact .text (.inl rfl) (quoted_escape s.toList)
  | word name => exact .word h
  | symbol s => exact .symbol s

lemma endsBefore_nil (t : Token) : t.EndsBefore [] := by simp [Token.EndsBefore]

lemma endsBefore_blank (t : Token) (cs : List Char) : t.EndsBefore (' ' :: cs) := by
  intro c hc
  obtain rfl : ' ' = c := by simpa using hc
  cases t with
  | int n => exact ⟨by decide, by decide, by decide, by decide⟩
  | float x => trivial
  | text s => trivial
  | word name => exact (by decide +kernel : isWordChar ' ' = false)
  | symbol s =>
    intro d _
    simp [Symbol.ofTwo?]

lemma spells_lineChars (h : ∀ t ∈ ts, t.Spelled t.chars) : Spells ts (lineChars ts) := by
  fun_induction lineChars ts with
  | case1 => exact .nil
  | case2 t =>
    rw [← List.append_nil t.chars]
    exact .token (h t List.mem_cons_self) (endsBefore_nil t) .nil
  | case3 t t' ts ih =>
    have hmore := ih fun t ht => h t (List.mem_cons_of_mem _ ht)
    exact .token (h t List.mem_cons_self) (endsBefore_blank t _) (.blank (by decide) hmore)

lemma spelled_tokens {e : Expr} (h : e.Writable) : ∀ t ∈ e.tokens, t.Spelled t.chars :=
  fun t ht => spelled_chars (List.all_eq_true.1 (plain_tokens e h) t ht)

lemma spelled_statement {s : Statement} (h : s.Writable) : ∀ t ∈ s.tokens, t.Spelled t.chars := by
  have hreturn : (Token.word "return").Spelled (Token.word "return").chars := .word (by decide)
  cases s with
  | assign target e =>
    exact List.forall_mem_cons.2 ⟨.word h.1.1,
      List.forall_mem_cons.2 ⟨.symbol .assign, spelled_tokens h.2⟩⟩
  | expr e => exact spelled_tokens h
  | «return» e =>
    cases e with
    | none => exact List.forall_mem_cons.2 ⟨hreturn, by simp⟩
    | some e => exact List.forall_mem_cons.2 ⟨hreturn, spelled_tokens h⟩

lemma spelled_param {p : Param} (hname : IsName p.name)
    (hdefault : ∀ e, p.default = some e → e.Writable) : ∀ t ∈ p.tokens, t.Spelled t.chars := by
  obtain ⟨name, d⟩ := p
  cases d with
  | none => exact List.forall_mem_cons.2 ⟨.word hname.1, by simp⟩
  | some e =>
    exact List.forall_mem_cons.2 ⟨.word hname.1,
      List.forall_mem_cons.2 ⟨.symbol .assign, spelled_tokens (hdefault e rfl)⟩⟩

lemma spelled_params : ∀ l : List Param,
    (∀ p ∈ l, IsName p.name ∧ ∀ e, p.default = some e → e.Writable) →
    ∀ t ∈ paramTokens l, t.Spelled t.chars
  | [], _ => by simp [paramTokens]
  | [p], h => by
    obtain ⟨hname, hdefault⟩ := h p List.mem_cons_self
    exact spelled_param hname hdefault
  | p :: p' :: l, h => by
    obtain ⟨hname, hdefault⟩ := h p List.mem_cons_self
    have hmore := spelled_params (p' :: l) fun q hq => h q (List.mem_cons_of_mem _ hq)
    rw [paramTokens]
    exact List.forall_mem_append.2 ⟨spelled_param hname hdefault,
      List.forall_mem_cons.2 ⟨.symbol .comma, hmore⟩⟩

lemma spelled_header {f : FunctionDef} (h : f.Writable) :
    ∀ t ∈ f.headerTokens, t.Spelled t.chars := by
  have hparams := spelled_params f.params h.param
  have hdef : (Token.word "def").Spelled (Token.word "def").chars := .word (by decide)
  have hsymbol : ∀ s, (Token.symbol s).Spelled (Token.symbol s).chars := fun s => .symbol s
  have hname : (Token.word f.name).Spelled (Token.word f.name).chars := .word h.name.1
  simpa [FunctionDef.headerTokens, or_imp, forall_and, hdef, hname, hsymbol] using hparams

end Spelling

/-! ### Its lines -/

/-- No line ends within the characters. -/
def Unbroken (cs : List Char) : Prop := ∀ c ∈ cs, c ≠ '\n' ∧ c ≠ '\r'

section Lines

variable {t : Token} {ts : List Token} {cs : List Char} {ls : List (List Char)}

lemma unbroken_of_all {p : Char → Bool} (hp : p '\n' = false ∧ p '\r' = false)
    (h : cs.all p = true) : Unbroken cs := by
  rw [List.all_eq_true] at h
  refine fun c hc => ⟨?_, ?_⟩
  · rintro rfl
    exact absurd (h _ hc) (by simp [hp.1])
  · rintro rfl
    exact absurd (h _ hc) (by simp [hp.2])

/-- Whether a character ends no line. -/
def isInner (c : Char) : Bool := c != '\n' && c != '\r'

lemma unbroken_of_isInner (h : cs.all isInner = true) : Unbroken cs :=
  unbroken_of_all ⟨rfl, rfl⟩ h

lemma Unbroken.isLine (h : Unbroken cs) : Text.IsLine cs :=
  ⟨fun hmem => (h _ hmem).1 rfl, fun hlast => (h _ (List.mem_of_getLast? hlast)).2 rfl⟩

lemma lines_flatMap (h : ∀ cs ∈ ls, Unbroken cs) :
    Text.lines (ls.flatMap fun cs => cs ++ ['\n']) = ls := by
  induction ls with
  | nil => rfl
  | cons cs ls ih =>
    have hcs := (h cs List.mem_cons_self).isLine
    rw [List.flatMap_cons, List.append_assoc, List.singleton_append, Text.lines_append hcs,
      ih fun l hl => h l (List.mem_cons_of_mem _ hl)]

lemma unbroken_escape (c : Char) : Unbroken (escape c) := by
  unfold escape
  split
  case h_7 hline _ hreturn _ _ _ =>
    intro d hd
    obtain rfl : d = c := by simpa using hd
    exact ⟨hline, hreturn⟩
  all_goals exact unbroken_of_isInner (by decide)

lemma unbroken_toDigits (n : ℕ) : Unbroken (Nat.toDigits 10 n) :=
  unbroken_of_all (p := Text.isDigit) (by decide)
    (List.all_eq_true.2 fun _ hc => Json.isDigit_of_mem_toDigits hc)

lemma isWordChar_of_isWord {name : String} (h : isWord name = true) :
    name.toList.all isWordChar = true := by
  rw [isWord] at h
  cases hname : name.toList with
  | nil => simp
  | cons c w =>
    rw [hname, Bool.and_eq_true, Bool.or_eq_true] at h
    rw [List.all_cons, h.2, Bool.and_true]
    rcases h.1 with hletter | hmark
    · simp [isWordChar, Text.isLetterOrNumber, hletter]
    · simp [isWordChar, hmark]

lemma unbroken_chars (h : t.Spelled t.chars) : Unbroken t.chars := by
  cases t with
  | int n => exact unbroken_toDigits _
  | float x => simp [Token.chars, Unbroken]
  | text s =>
    intro c hc
    simp only [Token.chars, List.mem_cons, List.mem_append, List.mem_flatMap,
      List.not_mem_nil, or_false] at hc
    rcases hc with rfl | ⟨d, -, hd⟩ | rfl
    · decide
    · exact unbroken_escape d c hd
    · decide
  | word name =>
    cases h with
    | word hname =>
      exact unbroken_of_all (by decide +kernel) (isWordChar_of_isWord hname)
  | symbol s => exact unbroken_of_isInner (by cases s <;> decide)

lemma unbroken_lineChars (h : ∀ t ∈ ts, t.Spelled t.chars) : Unbroken (lineChars ts) := by
  fun_induction lineChars ts with
  | case1 => simp [Unbroken]
  | case2 t => exact unbroken_chars (h t List.mem_cons_self)
  | case3 t t' ts ih =>
    have hfirst := unbroken_chars (h t List.mem_cons_self)
    have hmore := ih fun t ht => h t (List.mem_cons_of_mem _ ht)
    exact List.forall_mem_append.2 ⟨hfirst, List.forall_mem_cons.2 ⟨by decide, hmore⟩⟩

lemma unbroken_line {s : Statement} (h : s.Writable) : Unbroken s.line :=
  List.forall_mem_append.2
    ⟨unbroken_of_isInner (by decide), unbroken_lineChars (spelled_statement h)⟩

lemma unbroken_lines {f : FunctionDef} (h : f.Writable) : ∀ cs ∈ f.lines, Unbroken cs := by
  refine List.forall_mem_cons.2 ⟨unbroken_lineChars (spelled_header h), ?_⟩
  intro cs hcs
  obtain ⟨s, hs, rfl⟩ := List.mem_map.1 hcs
  exact unbroken_line (h.statement s hs)

/-- The lines of a body are indented, those of the headers are not. -/
lemma indentation_line (s : Statement) : 0 < indentation s.line := by
  have hblank : Text.isBlank ' ' = true := by decide
  have hline : s.line = ' ' :: ("   ".toList ++ lineChars s.tokens) := rfl
  rw [hline, indentation, if_pos hblank]
  exact Nat.add_pos_left (by decide) _

lemma indentation_header (f : FunctionDef) : indentation (lineChars f.headerTokens) = 0 := by
  have hblank : Text.isBlank 'd' = false := by decide
  have hline : ∃ cs, lineChars f.headerTokens = 'd' :: cs := ⟨_, rfl⟩
  obtain ⟨cs, hcs⟩ := hline
  rw [hcs, indentation, if_neg (by simp [hblank])]

lemma spells_line {s : Statement} (h : s.Writable) : Spells s.tokens s.line := by
  have hspells := spells_lineChars (spelled_statement h)
  exact .blank (by decide) (.blank (by decide) (.blank (by decide) (.blank (by decide) hspells)))

lemma statement_tokens_ne_nil {s : Statement} (h : s.Writable) : s.tokens ≠ [] := by
  cases s with
  | assign target e => simp [Statement.tokens]
  | expr e =>
    obtain ⟨t, rest, hts, -⟩ := begins_tokens e h
    simp [Statement.tokens, hts]
  | «return» e => cases e <;> simp [Statement.tokens]

lemma lays_body {ss : List Statement} (hss : ∀ s ∈ ss, s.Writable) {n : ℕ} {rest : List Line}
    {css : List (List Char)} (h : Lays (n + ss.length) rest css) :
    ∃ body, List.Forall₂ (fun s l => l.tokens = s.tokens ∧ 0 < l.indent) ss body ∧
      Lays n (body ++ rest) (ss.map Statement.line ++ css) := by
  induction ss generalizing n with
  | nil => exact ⟨[], .nil, h⟩
  | cons s ss ih =>
    have hs := hss s List.mem_cons_self
    rw [List.length_cons, ← Nat.add_assoc, Nat.add_right_comm] at h
    obtain ⟨body, hbody, hlays⟩ := ih (fun s' hs' => hss s' (List.mem_cons_of_mem _ hs')) h
    exact ⟨_, .cons ⟨rfl, indentation_line s⟩ hbody,
      .line (statement_tokens_ne_nil hs) (spells_line hs) hlays⟩

lemma lays_lines {fs : List FunctionDef} (hfs : ∀ f ∈ fs, f.Writable) (n : ℕ) :
    ∃ ls, Listing fs ls ∧ (∀ l ∈ ls.head?, l.indent = 0) ∧
      Lays n ls (fs.flatMap FunctionDef.lines) := by
  induction fs generalizing n with
  | nil => exact ⟨[], .nil, by simp, .nil n⟩
  | cons f fs ih =>
    have hf := hfs f List.mem_cons_self
    obtain ⟨rest, hlisting, hhead, hrest⟩ :=
      ih (fun g hg => hfs g (List.mem_cons_of_mem _ hg)) (n + 1 + f.body.length)
    obtain ⟨body, hbody, hlays⟩ := lays_body hf.statement hrest
    have hindent := indentation_header f
    have hlists : Listing (f :: fs)
        (⟨n, indentation (lineChars f.headerTokens), f.headerTokens⟩ :: (body ++ rest)) := by
      refine .cons rfl ?_ ?_ hlisting
      · simpa only [hindent] using hbody
      · intro l hl
        exact Nat.le_of_eq ((hhead l hl).trans hindent.symm)
    refine ⟨_, hlists, ?_, .line (by simp [FunctionDef.headerTokens])
      (spells_lineChars (spelled_header hf)) hlays⟩
    intro l hl
    obtain rfl := Option.some.inj hl
    exact hindent

end Lines

lemma renders_render {fs : List FunctionDef} (hfs : ∀ f ∈ fs, f.Writable) :
    Renders fs (render fs) := by
  obtain ⟨ls, hlisting, -, hlays⟩ := lays_lines hfs 1
  refine ⟨ls, hlisting, ?_⟩
  rw [render, String.toList_ofList, lines_flatMap]
  · exact hlays
  · intro cs hcs
    obtain ⟨f, hf, hcs⟩ := List.mem_flatMap.1 hcs
    exact unbroken_lines (hfs f hf) cs hcs

/-- **The functions of a script are read back from its text**: there is a text for any functions
that can be written, and from every text for them they are read back. -/
theorem parse_renders {fs : List FunctionDef} (hfs : ∀ f ∈ fs, f.Writable) :
    Renders fs (render fs) ∧ ∀ source, Renders fs source → parse source = .ok fs :=
  ⟨renders_render hfs, fun _ h => parse_of_renders hfs h⟩

/-- Two functions, the first with a default, a sum in a product and a sign in an exponent, the
second with quotes and a line feed in its text. -/
def scaling : List FunctionDef :=
  [⟨"scaled", [⟨"x", none⟩, ⟨"k", some (.negate (.literal (.int 2)))⟩],
    [.assign "y" (.arithmetic .multiply
      (.arithmetic .add (.variable "x") (.literal (.int 1)))
      (.arithmetic .power (.variable "k") (.negate (.variable "x")))),
      .return (some (.variable "y"))]⟩,
    ⟨"label", [], [.return (some (.literal (.text "a\n\"b\"")))]⟩]

theorem parse_renders_scaling :
    (∀ f ∈ scaling, f.Writable) ∧
      parse ("def scaled ( x , k = - 2 ) :\n    y = ( x + 1 ) * k ** - x\n    return y\n" ++
        "def label ( ) :\n    return \"a\\n\\\"b\\\"\"\n") = .ok scaling := by
  have hwritable : ∀ f ∈ scaling, f.Writable := by
    simp only [scaling, List.forall_mem_cons]
    refine ⟨⟨by decide, ?_, ?_⟩, ⟨by decide, by simp, ?_⟩, by simp⟩
    · simp [Expr.Writable]
      decide
    · simp [Statement.Writable, Expr.Writable]
      decide
    · simp [Statement.Writable, Expr.Writable, IsLiteral]
  have hrenders := parse_renders hwritable
  have htext : render scaling =
      "def scaled ( x , k = - 2 ) :\n    y = ( x + 1 ) * k ** - x\n    return y\n" ++
        "def label ( ) :\n    return \"a\\n\\\"b\\\"\"\n" := by
    decide +kernel
  rw [← htext]
  exact ⟨hwritable, hrenders.2 _ hrenders.1⟩

end Dataflow.Script

import Dataflow.Proofs.Script.Margin
import Dataflow.Proofs.Script.RoundTrip

/-!
# Which function a call of a program calls

A program has one section for each function name, with the text of the first node of this name in
declaration order, and a call names its function.  What a name stands for is what it was bound to
last, by a section or by a variable that an earlier line of the entry block assigns.  Nothing
keeps another section or a variable from binding the name of a function again; where none does,
the call reaches the function that the first text has under the name (`callee_resolves`).
A node of the same name with another text is called with that function as well
(`sharing_resolves`).
-/

namespace Dataflow

namespace Program

/-! ## Bindings -/

/-- A name that is bound at the outermost level of a program. -/
inductive Bound where
  | definition (f : Script.FunctionDef)
  /-- A name of something else, as a module or a variable. -/
  | other (name : String)

namespace Bound

/-- The name that is bound. -/
def name : Bound → String
  | definition f => f.name
  | other name => name

/-- The function that is bound. -/
def definition? : Bound → Option Script.FunctionDef
  | definition f => some f
  | other _ => none

end Bound

/-- What the texts of sections bind, in their order.  A text that is a script binds the functions
of the script, and nothing is said about other texts. -/
structure SectionReader where
  bindings : String → List Bound
  definitions_eq : ∀ {text : String} {fs : List Script.FunctionDef}, Script.parse text = .ok fs →
    (bindings text).filterMap Bound.definition? = fs

/-- What a name was bound to last. -/
def latest? (name : String) (bs : List Bound) : Option Bound :=
  bs.reverse.find? fun b => b.name = name

section Latest

variable {name : String} {b : Bound} {bs bs' : List Bound}

lemma latest?_append (h : ∀ b ∈ bs', b.name ≠ name) :
    latest? name (bs ++ bs') = latest? name bs := by
  have hnone : bs'.reverse.find? (fun b => b.name = name) = none := by simpa using h
  rw [latest?, List.reverse_append, List.find?_append, hnone, Option.none_or, latest?]

lemma latest?_append_some (h : latest? name bs' = some b) :
    latest? name (bs ++ bs') = some b := by
  rw [latest?] at h
  rw [latest?, List.reverse_append, List.find?_append, h, Option.some_or]

/-- A name that is bound once stands for what it is bound to. -/
lemma latest?_of_count (hb : b ∈ bs) (hname : b.name = name)
    (hcount : bs.countP (fun b => b.name = name) ≤ 1) : latest? name bs = some b := by
  obtain ⟨pre, post, rfl⟩ := List.append_of_mem hb
  have hpost : ∀ b' ∈ post, b'.name ≠ name := by
    intro b' hb' hname'
    have hpos : 0 < post.countP (fun b => b.name = name) :=
      List.countP_pos_iff.2 ⟨b', hb', by simpa using hname'⟩
    rw [List.countP_append, List.countP_cons_of_pos (by simpa using hname)] at hcount
    omega
  rw [List.append_cons, latest?_append hpost]
  exact latest?_append_some (by simp [latest?, hname])

end Latest

/-! ## Lines -/

/-- The variable that a line assigns. -/
def Line.target? : Line → Option String
  | run _ => none
  | assign target _ | unpack target _ _ => some target

/-- What a line calls. -/
def Line.callee? : Line → Option Callee
  | run c | assign _ c => some c.callee
  | unpack .. => none

/-- What is bound in front of a line of the entry block. -/
def boundBefore (reader : SectionReader) (program : Program) (earlier : List Line) : List Bound :=
  program.definitions.flatMap reader.bindings ++ (earlier.filterMap Line.target?).map .other

/-- Variables of other names leave a name to the sections. -/
lemma latest?_boundBefore {reader : SectionReader} {program : Program} {earlier : List Line}
    {name : String} (h : ∀ line ∈ earlier, line.target? ≠ some name) :
    latest? name (program.boundBefore reader earlier) =
      latest? name (program.definitions.flatMap reader.bindings) := by
  refine latest?_append fun b hb hname => ?_
  obtain ⟨target, htarget, rfl⟩ := List.mem_map.1 hb
  obtain ⟨line, hline, hassigns⟩ := List.mem_filterMap.1 htarget
  exact h line hline (by rw [hassigns]; exact congrArg some hname)

/-- What the name of a callee stands for. -/
def Callee.meaning? (bs : List Bound) : Callee → Option Bound
  | function name => latest? name bs
  | member .. | materialized .. => none

lemma linesOf_eq_cons (vars : Variables) (n : PlannedNode) :
    ∃ line more, linesOf vars n = line :: more ∧ line.callee? = some (calleeOf vars n) := by
  unfold linesOf
  split <;> exact ⟨_, _, rfl, rfl⟩

/-! ## Sections -/

/-- The text that a node of the given name brings along. -/
def sourceOf? (name : String) (n : PlannedNode) : Option String :=
  match n.behavior with
  | .inline source => if n.name = name then some source else none
  | _ => none

/-- The text of the first node of the given name that brings one along, in declaration order. -/
def firstSource? (p : Plan) (name : String) : Option String :=
  (declaredOrder p).findSome? (sourceOf? name)

/-- The first text for a name is among those of the sections. -/
lemma mem_sourcesOf {name source : String} {ns : List PlannedNode} {seen : List String}
    (hseen : name ∉ seen) (h : ns.findSome? (sourceOf? name) = some source) :
    source ∈ sourcesOf seen ns := by
  fun_induction sourcesOf seen ns with
  | case1 => simp at h
  | case2 seen n rest text hinline hmem ih =>
    have hname : n.name ≠ name := by
      rintro rfl
      exact hseen hmem
    rw [List.findSome?_cons_of_isNone] at h
    · exact ih hseen h
    · simp [sourceOf?, hinline, hname]
  | case3 seen n rest text hinline hmem ih =>
    by_cases hname : n.name = name
    · simp_all [sourceOf?]
    · rw [List.findSome?_cons_of_isNone] at h
      · exact List.mem_cons_of_mem _ (ih (by simp [hseen, Ne.symm hname]) h)
      · simp [sourceOf?, hinline, hname]
  | case4 seen n rest hother ih =>
    have hnone : sourceOf? name n = none := by
      rw [sourceOf?]
      split
      · rename_i text hinline
        exact absurd hinline (hother text)
      · rfl
    rw [List.findSome?_cons_of_isNone] at h
    · exact ih hseen h
    · simp [hnone]

/-- The last place of something in a list. -/
lemma exists_last_of_mem {α : Type} {a : α} {l : List α} (h : a ∈ l) :
    ∃ early late, l = early ++ a :: late ∧ a ∉ late := by
  obtain ⟨late, early, hsplit, hlate⟩ := List.eq_append_cons_of_mem (List.mem_reverse.2 h)
  refine ⟨early.reverse, late.reverse, ?_, by simpa using hlate⟩
  rw [← List.reverse_reverse l, hsplit]
  simp

lemma exists_parse {name source : String} {f : Script.FunctionDef}
    (h : Script.findFunction name source = .ok f) :
    ∃ fs, Script.parse source = .ok fs ∧ f ∈ fs ∧ f.name = name := by
  rw [Script.findFunction] at h
  cases hparse : Script.parse source with
  | error e => simp [hparse, bind, Except.bind] at h
  | ok fs =>
    simp only [hparse, bind, Except.bind] at h
    cases hfind : fs.find? fun f => f.name = name with
    | none => simp [hfind, throw, throwThe, MonadExceptOf.throw] at h
    | some g =>
      simp only [hfind] at h
      obtain rfl := Except.ok.inj h
      exact ⟨fs, rfl, List.mem_of_find?_eq_some hfind, by simpa using List.find?_some hfind⟩

/-- A section that binds a name once binds it to the function of its script. -/
lemma latest?_section {reader : SectionReader} {name source : String} {f : Script.FunctionDef}
    (hmargin : Script.SharedMargin source) (hfind : Script.findFunction name source = .ok f)
    (honce : (reader.bindings (dedented source)).countP (fun b => b.name = name) ≤ 1) :
    latest? name (reader.bindings (dedented source)) = some (.definition f) := by
  obtain ⟨fs, hparse, hmem, hname⟩ := exists_parse hfind
  have hdefinitions := reader.definitions_eq (Script.parse_dedented hmargin hparse)
  rw [← hdefinitions] at hmem
  obtain ⟨b, hb, hdefinition⟩ := List.mem_filterMap.1 hmem
  obtain rfl : b = .definition f := by
    cases b with
    | definition g => rw [Option.some.inj hdefinition]
    | other name => simp [Bound.definition?] at hdefinition
  exact latest?_of_count hb hname honce

end Program

/-! ## Calls -/

/-- **A call reaches the function that the first text has under its name**: if this text has the
same margin in all lines and binds the name once, and no section after it and no earlier line of
the entry block binds the name again. -/
theorem Plan.callee_resolves (reader : Program.SectionReader) (r : Registry) (p : Plan)
    (program : Program) (before after : List PlannedNode) (n : PlannedNode) (own source : String)
    (f : Script.FunctionDef) (hprogram : p.program r = .ok program)
    (hnodes : p.nodes = before ++ n :: after) (hinline : n.behavior = .inline own)
    (hsource : Program.firstSource? p n.name = some source)
    (hfind : Script.findFunction n.name source = .ok f) (hmargin : Script.SharedMargin source)
    (honce : (reader.bindings (Program.dedented source)).countP (fun b => b.name = n.name) ≤ 1)
    (hlater : ∀ early late, program.definitions = early ++ Program.dedented source :: late →
      Program.dedented source ∉ late → ∀ text ∈ late, ∀ b ∈ reader.bindings text, b.name ≠ n.name)
    (hvariable : ∀ line ∈ before.flatMap (Program.linesOf (Program.Variables.ofPlan p)),
      line.target? ≠ some n.name) :
    ∃ line later callee,
      program.entry =
        before.flatMap (Program.linesOf (Program.Variables.ofPlan p)) ++ line :: later ∧
      (Program.linesOf (Program.Variables.ofPlan p) n).head? = some line ∧
      line.callee? = some callee ∧
      callee.meaning? (program.boundBefore reader
        (before.flatMap (Program.linesOf (Program.Variables.ofPlan p)))) =
          some (.definition f) := by
  obtain rfl : Program.ofPlan p = program := by
    rw [Plan.program] at hprogram
    split at hprogram
    · simp at hprogram
    · exact Except.ok.inj hprogram
  generalize hvars : Program.Variables.ofPlan p = vars at hvariable ⊢
  obtain ⟨line, more, hlines, hcallee⟩ := Program.linesOf_eq_cons vars n
  have hentry : (Program.ofPlan p).entry = before.flatMap (Program.linesOf vars) ++
      line :: (more ++ after.flatMap (Program.linesOf vars)) := by
    rw [Program.ofPlan, hnodes, hvars, List.flatMap_append, List.flatMap_cons, hlines,
      List.cons_append]
  refine ⟨line, _, Program.calleeOf vars n, hentry, by rw [hlines]; rfl, hcallee, ?_⟩
  -- the text has a section, after the last copy of which the name is not bound again
  have hmem : Program.dedented source ∈ (Program.ofPlan p).definitions :=
    List.mem_map_of_mem (Program.mem_sourcesOf (by simp) hsource)
  obtain ⟨early, late, hsplit, hlast⟩ := Program.exists_last_of_mem hmem
  have hlate : ∀ b ∈ late.flatMap reader.bindings, b.name ≠ n.name := by
    intro b hb
    obtain ⟨text, htext, hb⟩ := List.mem_flatMap.1 hb
    exact hlater early late hsplit hlast text htext b hb
  rw [Program.calleeOf, hinline, Program.Callee.meaning?, Program.latest?_boundBefore hvariable,
    hsplit, List.append_cons, List.flatMap_append, Program.latest?_append hlate,
    List.flatMap_append]
  exact Program.latest?_append_some
    (by simpa using Program.latest?_section hmargin hfind honce)

/-! ## Two texts for a name -/

/-- The reader that takes sections for scripts. -/
def Program.SectionReader.scripts : SectionReader where
  bindings text :=
    match Script.parse text with
    | .ok fs => fs.map .definition
    | .error _ => []
  definitions_eq h := by simp [h, List.filterMap_map, Function.comp_def, Program.Bound.definition?]

/-- A function `f` that returns a number. -/
def Script.returning (k : Int64) : Script.FunctionDef :=
  ⟨"f", [], [.return (some (.literal (.int k)))]⟩

/-- The text of `returning 1`. -/
def Script.returningOne : String := "def f ( ) :\n    return 1\n"

/-- The text of `returning 2`. -/
def Script.returningTwo : String := "def f ( ) :\n    return 2\n"

/-- A graph of two nodes with the same name and different texts. -/
def Graph.sharing : Graph where
  nodes := [
    ⟨"a", "f", [], [⟨"x", none⟩], some Script.returningOne, none, none⟩,
    ⟨"b", "f", [], [⟨"x", none⟩], some Script.returningTwo, none, none⟩]
  connections := []
  valid := valid_of_fault?_eq_none (by decide)

/-- The first node of `sharing` in its plan. -/
def Graph.sharingFirst : PlannedNode :=
  ⟨"a", 0, "f", ["x"], [], .inline Script.returningOne, [], 0⟩

/-- The second node of `sharing` in its plan. -/
def Graph.sharingSecond : PlannedNode :=
  ⟨"b", 1, "f", ["x"], [], .inline Script.returningTwo, [], 0⟩

/-- The plan of `sharing`. -/
def Graph.sharingPlan : Plan := ⟨[sharingFirst, sharingSecond]⟩

lemma Script.parse_returning {k : Int64} (h : 0 ≤ k.toInt) {source : String}
    (hsource : render [returning k] = source) : parse source = .ok [returning k] := by
  have hname : IsName "f" := by decide
  have hwritable : ∀ f ∈ [returning k], f.Writable := by
    simp only [List.forall_mem_singleton, returning]
    exact ⟨hname, by simp, by simpa [Statement.Writable, Expr.Writable, IsLiteral] using h⟩
  rw [← hsource]
  exact parse_of_renders hwritable (renders_render hwritable)

lemma Script.parse_returningOne : parse returningOne = .ok [returning 1] :=
  parse_returning (by decide) (by decide +kernel)

lemma Script.parse_returningTwo : parse returningTwo = .ok [returning 2] :=
  parse_returning (by decide) (by decide +kernel)

lemma Script.sharedMargin_returningOne : SharedMargin returningOne :=
  sharedMargin_of_replicate (b := ' ') (by decide +kernel)

namespace Program

lemma declaredOrder_sharingPlan : declaredOrder Graph.sharingPlan = Graph.sharingPlan.nodes :=
  List.mergeSort_of_pairwise (by decide)

lemma definitions_sharingPlan :
    (ofPlan Graph.sharingPlan).definitions = [dedented Script.returningOne] := by
  rw [ofPlan, declaredOrder_sharingPlan]
  rfl

lemma bindings_returningOne :
    SectionReader.scripts.bindings (dedented Script.returningOne) =
      [.definition (Script.returning 1)] := by
  have hparse := Script.parse_dedented Script.sharedMargin_returningOne Script.parse_returningOne
  simp [SectionReader.scripts, hparse]

/-- The lines of the first node assign no variable with the name of the function. -/
lemma target?_sharingFirst :
    ∀ line ∈ [Graph.sharingFirst].flatMap (linesOf (.ofPlan Graph.sharingPlan)),
      line.target? ≠ some "f" := by
  have hname : (Variables.ofPlan Graph.sharingPlan).nameOf (.output "a" "x") = "node_a_x" := by
    decide
  simp [linesOf, Graph.sharingFirst, Line.target?, hname]

end Program

/-- The second node runs its own text, and its call reaches the function of the first. -/
theorem Graph.sharing_resolves :
    sharing.plan = .ok sharingPlan ∧
      sharingPlan.program (Dict.ofList []) = .ok (.ofPlan sharingPlan) ∧
      sharingPlan.nodes = [sharingFirst] ++ sharingSecond :: [] ∧
      sharingSecond.behavior = .inline Script.returningTwo ∧
      Script.findFunction sharingSecond.name Script.returningTwo = .ok (Script.returning 2) ∧
      (Program.calleeOf (.ofPlan sharingPlan) sharingSecond).meaning?
        ((Program.ofPlan sharingPlan).boundBefore .scripts
          ([sharingFirst].flatMap (Program.linesOf (.ofPlan sharingPlan)))) =
        some (.definition (Script.returning 1)) ∧
      Script.returning 1 ≠ Script.returning 2 := by
  refine ⟨rfl, rfl, rfl, rfl, ?_, ?_, ?_⟩
  · rw [Script.findFunction, Script.parse_returningTwo]
    rfl
  · have hsections : (Program.ofPlan sharingPlan).definitions.flatMap
        Program.SectionReader.scripts.bindings = [.definition (Script.returning 1)] := by
      rw [Program.definitions_sharingPlan, List.flatMap_singleton, Program.bindings_returningOne]
    refine (Program.latest?_boundBefore Program.target?_sharingFirst).trans ?_
    rw [hsections]
    rfl
  · simp [Script.returning]

theorem Plan.callee_resolves_sharing :
    Program.firstSource? Graph.sharingPlan "f" = some Script.returningOne ∧
      Script.findFunction "f" Script.returningOne = .ok (Script.returning 1) ∧
      ∃ line later callee,
        (Program.ofPlan Graph.sharingPlan).entry =
          [Graph.sharingFirst].flatMap (Program.linesOf (.ofPlan Graph.sharingPlan)) ++
            line :: later ∧
        (Program.linesOf (.ofPlan Graph.sharingPlan) Graph.sharingSecond).head? = some line ∧
        line.callee? = some callee ∧
        callee.meaning? ((Program.ofPlan Graph.sharingPlan).boundBefore .scripts
          ([Graph.sharingFirst].flatMap (Program.linesOf (.ofPlan Graph.sharingPlan)))) =
            some (.definition (Script.returning 1)) := by
  have hsource : Program.firstSource? Graph.sharingPlan "f" = some Script.returningOne := by
    rw [Program.firstSource?, Program.declaredOrder_sharingPlan]
    rfl
  have hfind : Script.findFunction "f" Script.returningOne = .ok (Script.returning 1) := by
    rw [Script.findFunction, Script.parse_returningOne]
    rfl
  have honce : (Program.SectionReader.scripts.bindings
      (Program.dedented Script.returningOne)).countP (fun b => b.name = "f") ≤ 1 := by
    rw [Program.bindings_returningOne]
    decide
  refine ⟨hsource, hfind, ?_⟩
  refine callee_resolves .scripts (Dict.ofList []) Graph.sharingPlan (.ofPlan Graph.sharingPlan)
    [Graph.sharingFirst] [] Graph.sharingSecond Script.returningTwo Script.returningOne
    (Script.returning 1) rfl rfl rfl hsource hfind Script.sharedMargin_returningOne honce ?_
    Program.target?_sharingFirst
  -- there is no other section
  intro early late hsplit _ text htext
  rw [Program.definitions_sharingPlan] at hsplit
  have hlength := congrArg List.length hsplit
  obtain rfl : late = [] := List.eq_nil_of_length_eq_zero (by simp at hlength; omega)
  simp at htext

end Dataflow

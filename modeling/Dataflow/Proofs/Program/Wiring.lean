import Dataflow.Proofs.Graph.Acceptance
import Dataflow.Proofs.Program.Refinement
import Dataflow.Proofs.Program.Resolution

/-!
# Which variables a program reads

A call of the entry block reads a variable for each input that is connected, and one more if the
text of its function comes from another node.  If the origin of the connection declares the output
that the connection names, an earlier line of the origin has assigned the variable, and no line of
another node ever does (`Graph.wiring`).  An output that is not declared has no variable: what is
read in its place is its plain name, which may not be assigned at all, or may be the variable of
another node (`Graph.wiring_strays`).
-/

namespace Dataflow

/-- Where the parts of a list come from that its members are turned into. -/
lemma exists_of_flatMap_eq {α β : Type} {f : α → List β} {l : List α} {before after : List β}
    {x : β} (h : l.flatMap f = before ++ x :: after) :
    ∃ done a rest, l = done ++ a :: rest ∧ x ∈ f a ∧ done.flatMap f ⊆ before := by
  induction l generalizing before with
  | nil => simp at h
  | cons a l ih =>
    rw [List.flatMap_cons] at h
    rcases List.append_eq_append_iff.1 h with ⟨between, rfl, hrest⟩ | ⟨between, hfirst, hrest⟩
    · obtain ⟨done, a', rest, rfl, hx, hdone⟩ := ih hrest
      refine ⟨a :: done, a', rest, rfl, hx, ?_⟩
      rw [List.flatMap_cons]
      exact List.append_subset.2
        ⟨List.subset_append_left _ _, List.subset_append_of_subset_right _ hdone⟩
    · cases between with
      | nil =>
        -- the first member ends right in front of `x`
        obtain ⟨done, a', rest, rfl, hx, hdone⟩ := ih (show l.flatMap f = [] ++ x :: after from hrest.symm)
        refine ⟨a :: done, a', rest, rfl, hx, ?_⟩
        rw [List.append_nil] at hfirst
        rw [List.flatMap_cons, hfirst]
        exact List.append_subset.2 ⟨List.Subset.refl _, List.Subset.trans hdone (List.nil_subset _)⟩
      | cons y between =>
        obtain ⟨rfl, -⟩ := List.cons.inj hrest
        exact ⟨[], a, l, rfl, by simp [hfirst], by simp⟩

/-- A node of a graph declares an output. -/
def Graph.Declares (g : Graph) (id output : String) : Prop :=
  ∃ node ∈ g.nodes, node.id = id ∧ output ∈ node.outputNames

namespace Program

variable {vars : Variables} {p : Plan} {n m : PlannedNode} {line : Line} {name output : String}

/-! ## What a line assigns -/

/-- The call of a line. -/
def Line.call? : Line → Option Call
  | run c | assign _ c => some c
  | unpack .. => none

/-- The variable that a line of a node assigns holds an output: the result if this is the only
output of the node, and otherwise a part of it. -/
def Line.Yields (n : PlannedNode) (output : String) : Line → Prop
  | run _ => False
  | assign _ _ => n.outputs = [output]
  | unpack _ _ key => key = output

/-- Each output of a node is assigned by one of its lines. -/
lemma exists_target (vars : Variables) (ho : output ∈ n.outputs) :
    ∃ line ∈ linesOf vars n, line.target? = some (vars.nameOf (.output n.id output)) := by
  unfold linesOf
  split
  · rename_i houtputs
    simp [houtputs] at ho
  · rename_i houtputs
    obtain rfl : output = _ := List.mem_singleton.1 (houtputs ▸ ho)
    exact ⟨_, List.mem_singleton_self _, rfl⟩
  · exact ⟨_, List.mem_cons_of_mem _ (List.mem_map_of_mem ho), rfl⟩

/-- What a line of a node assigns is the whole result or an output. -/
lemma of_target (hline : line ∈ linesOf vars n) (h : line.target? = some name) :
    (.result n.id ∈ slotsOf n ∧ vars.nameOf (.result n.id) = name) ∨
      ∃ o ∈ n.outputs, vars.nameOf (.output n.id o) = name ∧ line.Yields n o := by
  unfold linesOf at hline
  split at hline
  · obtain rfl := List.mem_singleton.1 hline
    simp [Line.target?] at h
  · rename_i o houtputs
    obtain rfl := List.mem_singleton.1 hline
    exact .inr ⟨o, by simp [houtputs], Option.some.inj h, houtputs⟩
  · rename_i hnil hsingle
    rcases List.mem_cons.1 hline with rfl | hmem
    · refine .inl ⟨result_mem_slotsOf ?_, Option.some.inj h⟩
      rcases houtputs : n.outputs with _ | ⟨o, _ | ⟨o', rest⟩⟩
      · exact absurd houtputs hnil
      · exact absurd houtputs (hsingle o)
      · simp
    · obtain ⟨o, ho, rfl⟩ := List.mem_map.1 hmem
      exact .inr ⟨o, ho, Option.some.inj h, rfl⟩

lemma of_output_mem_slotsOf {id : String} (h : Slot.output id output ∈ slotsOf n) :
    n.id = id ∧ output ∈ n.outputs := by
  rcases List.mem_append.1 h with h | h
  · split at h <;> simp at h
  · obtain ⟨o, ho, heq⟩ := List.mem_map.1 h
    obtain ⟨rfl, rfl⟩ := Slot.output.inj heq
    exact ⟨rfl, ho⟩

lemma mem_block : (n, line) ∈ block p ↔ n ∈ p.nodes ∧ line ∈ linesOf (Variables.ofPlan p) n := by
  simp [block]

/-- The variable of an output of a node is assigned by the lines of this node for this output
alone. -/
lemma origin_of_target (hm : m ∈ p.nodes) (ho : output ∈ m.outputs) (hline : (n, line) ∈ block p)
    (h : line.target? = some ((Variables.ofPlan p).nameOf (.output m.id output))) :
    n.id = m.id ∧ line.Yields n output := by
  obtain ⟨hn, hmem⟩ := mem_block.1 hline
  have hslot := mem_slots hm (output_mem_slotsOf ho)
  rcases of_target hmem h with ⟨hresult, hname⟩ | ⟨o, ho', hname, hyields⟩
  · simpa using Variables.nameOf_inj (mem_slots hn hresult) hslot hname
  · obtain ⟨hid, rfl⟩ := Slot.output.inj
      (Variables.nameOf_inj (mem_slots hn (output_mem_slotsOf ho')) hslot hname)
    exact ⟨hid, hyields⟩

/-! ## What a call reads -/

lemma call_of_mem_linesOf {call : Call} (hline : line ∈ linesOf vars n)
    (h : line.call? = some call) : call = callOf vars n := by
  unfold linesOf at hline
  split at hline
  · obtain rfl := List.mem_singleton.1 hline
    exact (Option.some.inj h).symm
  · obtain rfl := List.mem_singleton.1 hline
    exact (Option.some.inj h).symm
  · rcases List.mem_cons.1 hline with rfl | hmem
    · exact (Option.some.inj h).symm
    · obtain ⟨o, -, rfl⟩ := List.mem_map.1 hmem
      simp [Line.call?] at h

lemma exists_binding_of_variable {input : String}
    (h : (input, .variable name) ∈ (callOf vars n).arguments) :
    ∃ id output, (input, .connected id output) ∈ n.arguments ∧
      name = vars.nameOf (.output id output) := by
  obtain ⟨⟨i, binding⟩, hmem, heq⟩ := List.mem_map.1 h
  obtain ⟨rfl, harg⟩ := Prod.mk.inj heq
  cases binding with
  | connected id output => exact ⟨id, output, hmem, (Argument.variable.inj harg).symm⟩
  | literal _ => simp [argumentOf] at harg
  | missing => simp [argumentOf] at harg

lemma exists_upstream_of_materialized {source function : String}
    (h : (callOf vars n).callee = .materialized source function) :
    ∃ id output, n.behavior = .upstream id output ∧
      source = vars.nameOf (.output id output) := by
  change calleeOf vars n = _ at h
  unfold calleeOf at h
  cases hbehavior : n.behavior with
  | upstream id output =>
    rw [hbehavior] at h
    exact ⟨id, output, rfl, (Callee.materialized.inj h).1.symm⟩
  | _ => simp [hbehavior] at h

end Program

lemma Plan.entry_of_program {r : Registry} {p : Plan} {program : Program}
    (h : p.program r = .ok program) : (Program.ofPlan p).entry = program.entry := by
  rw [Plan.program] at h
  split at h
  · simp at h
  · rw [Except.ok.inj h]

/-! ## Connections -/

namespace Graph

open Program

variable {g : Graph} {p : Plan} {order : List ℕ} {n : PlannedNode}

/-- What a connection and the variable that is read for it have to do with each other, when the
given lines have been executed. -/
structure Wired (g : Graph) (p : Plan) (before : List (PlannedNode × Line)) (c : Connection)
    (name : String) : Prop where
  assigned : g.Declares c.fromNode c.fromOutput → ∃ e ∈ before, e.2.target? = some name
  origin : g.Declares c.fromNode c.fromOutput → ∀ e ∈ block p, e.2.target? = some name →
    e.1.id = c.fromNode ∧ e.2.Yields e.1 c.fromOutput
  stray : ¬ g.Declares c.fromNode c.fromOutput → name = outputVariable c.fromNode c.fromOutput

namespace PlannedBy

/-- A connected argument comes over the connection into its input. -/
lemma incoming?_of_argument (hby : g.PlannedBy order p) (hn : n ∈ p.nodes)
    {input id output : String} (h : (input, .connected id output) ∈ n.arguments) :
    ∃ c, g.incoming? n.id input = some c ∧ c.fromNode = id ∧ c.fromOutput = output := by
  obtain ⟨i, hi⟩ := List.mem_iff_getElem?.1 hn
  obtain ⟨v, node, -, -, rfl⟩ := hby.getElem?_nodes_eq_some_iff.1 hi
  obtain ⟨i, -, heq⟩ := List.mem_map.1 h
  obtain ⟨rfl, hbinding⟩ := Prod.mk.inj heq
  change ∃ c, g.incoming? node.id i.name = some c ∧ _
  unfold bindingOf at hbinding
  split at hbinding
  · rename_i c hc
    exact ⟨c, hc, Binding.connected.inj hbinding⟩
  · split at hbinding <;> simp at hbinding

/-- A text from another node comes over the connection that supplies the function. -/
lemma incoming?_of_upstream (hby : g.PlannedBy order p) (hn : n ∈ p.nodes) {id output : String}
    (h : n.behavior = .upstream id output) :
    ∃ c, g.incoming? n.id behaviorInput = some c ∧ c.fromNode = id ∧ c.fromOutput = output := by
  obtain ⟨i, hi⟩ := List.mem_iff_getElem?.1 hn
  obtain ⟨v, node, -, -, rfl⟩ := hby.getElem?_nodes_eq_some_iff.1 hi
  change ∃ c, g.incoming? node.id behaviorInput = some c ∧ _
  change g.behaviorOf node = .upstream id output at h
  unfold behaviorOf at h
  split at h
  · simp at h
  · simp at h
  · rename_i c _ _ hc
    exact ⟨c, hc, BehaviorSource.upstream.inj h⟩
  · simp at h

lemma declares_iff (hby : g.PlannedBy order p) {id output : String} :
    g.Declares id output ↔ ∃ m ∈ p.nodes, m.id = id ∧ output ∈ m.outputs := by
  constructor
  · rintro ⟨node, hnode, rfl, ho⟩
    obtain ⟨v, hv⟩ := List.mem_iff_getElem?.1 hnode
    have hplace := hby.getElem?_idxOf (List.getElem?_eq_some_iff.1 hv).1
    have hm := hby.getElem?_nodes_eq_some_iff.2 ⟨v, node, hplace, hv, rfl⟩
    exact ⟨_, List.mem_of_getElem? hm, rfl, ho⟩
  · rintro ⟨m, hm, rfl, ho⟩
    obtain ⟨i, hi⟩ := List.mem_iff_getElem?.1 hm
    obtain ⟨v, node, -, hnode, rfl⟩ := hby.getElem?_nodes_eq_some_iff.1 hi
    exact ⟨node, List.mem_of_getElem? hnode, rfl, ho⟩

/-- What a node reads for a connection into it. -/
lemma wired (hby : g.PlannedBy order p) {before : List (PlannedNode × Line)}
    {done rest : List PlannedNode} (hsplit : p.nodes = done ++ n :: rest)
    (hdone : (done.flatMap fun m => (linesOf (Variables.ofPlan p) m).map fun line => (m, line)) ⊆
      before) {c : Connection} (href : (c.fromNode, c.fromOutput) ∈ n.references) :
    g.Wired p before c ((Variables.ofPlan p).nameOf (.output c.fromNode c.fromOutput)) := by
  refine ⟨fun hdeclared => ?_, fun hdeclared => ?_, fun hundeclared => ?_⟩
  · -- the origin stands in front of the node
    have hn : p.nodes[done.length]? = some n := by simp [hsplit]
    obtain ⟨j, m, hm, hid, hlt, -⟩ := hby.exists_producer hn href
    obtain ⟨m', hm', hid', ho⟩ := hby.declares_iff.1 hdeclared
    obtain rfl : m' = m :=
      List.inj_on_of_nodup_map hby.ids_nodup hm' (List.mem_of_getElem? hm) (hid'.trans hid.symm)
    have hmem : m' ∈ done := by
      rw [hsplit, List.getElem?_append_left hlt] at hm
      exact List.mem_of_getElem? hm
    obtain ⟨line, hline, htarget⟩ := exists_target (Variables.ofPlan p) ho
    rw [hid'] at htarget
    exact ⟨(m', line), hdone (List.mem_flatMap.2 ⟨m', hmem, List.mem_map_of_mem hline⟩), htarget⟩
  · rintro ⟨n', line⟩ he htarget
    obtain ⟨m, hm, hid, ho⟩ := hby.declares_iff.1 hdeclared
    rw [← hid] at htarget ⊢
    exact origin_of_target hm ho he htarget
  · -- no node has a slot for the output
    have hslot : Slot.output c.fromNode c.fromOutput ∉ slots p := by
      intro hmem
      obtain ⟨m, hm, hslot⟩ := List.mem_flatMap.1 hmem
      exact hundeclared (hby.declares_iff.2 ⟨m, hm, of_output_mem_slotsOf hslot⟩)
    exact Variables.nameOf_of_not_mem hslot

end PlannedBy

/-- **What a program reads for a connection comes from the origin of this connection**, if the
origin declares the output: an earlier line of it has assigned the variable, and only lines of it
assign the variable at all, with the output in question. -/
theorem wiring (g : Graph) (p : Plan) (program : Program) (r : Registry) (hplan : g.plan = .ok p)
    (hprogram : p.program r = .ok program) :
    (block p).map Prod.snd = program.entry ∧
      ∀ (before after : List (PlannedNode × Line)) (n : PlannedNode) (line : Line) (call : Call),
        block p = before ++ (n, line) :: after → line.call? = some call →
          (∀ input name, (input, .variable name) ∈ call.arguments →
            ∃ c, g.incoming? n.id input = some c ∧ g.Wired p before c name) ∧
          ∀ source function, call.callee = .materialized source function →
            ∃ c, g.incoming? n.id behaviorInput = some c ∧ g.Wired p before c source := by
  obtain ⟨order, hby⟩ := exists_plannedBy hplan
  refine ⟨Plan.entry_of_program hprogram ▸ map_snd_block p, ?_⟩
  intro before after n line call hblock hcall
  obtain ⟨done, m, rest, hsplit, hmem, hdone⟩ := exists_of_flatMap_eq hblock
  obtain ⟨line', hline, heq⟩ := List.mem_map.1 hmem
  obtain ⟨rfl, rfl⟩ := Prod.mk.inj heq
  have hn : m ∈ p.nodes := by simp [hsplit]
  obtain rfl := call_of_mem_linesOf hline hcall
  constructor
  · intro input name harg
    obtain ⟨id, output, hbinding, rfl⟩ := exists_binding_of_variable harg
    obtain ⟨c, hc, rfl, rfl⟩ := hby.incoming?_of_argument hn hbinding
    exact ⟨c, hc, hby.wired hsplit hdone (PlannedNode.argument_mem_references hbinding rfl)⟩
  · intro source function hcallee
    obtain ⟨id, output, hbehavior, rfl⟩ := exists_upstream_of_materialized hcallee
    obtain ⟨c, hc, rfl, rfl⟩ := hby.incoming?_of_upstream hn hbehavior
    exact ⟨c, hc, hby.wired hsplit hdone
      (PlannedNode.behavior_mem_references (by rw [hbehavior]; rfl))⟩

theorem wiring_joining :
    joining.plan = .ok joiningPlan ∧
      ∃ before after n line call, block joiningPlan = before ++ (n, line) :: after ∧
        line.call? = some call ∧ call.callee = .materialized "node_code_text" "add" ∧
        ("a", .variable "node_one_out") ∈ call.arguments ∧
        (∃ e ∈ before, e.2.target? = some "node_one_out") ∧
        ∀ e ∈ block joiningPlan, e.2.target? = some "node_code_text" →
          e.1.id = "code" ∧ e.2.Yields e.1 "text" := by
  have hplan : joining.plan = .ok joiningPlan := rfl
  let vars := Variables.ofPlan joiningPlan
  let n : PlannedNode := joiningPlan.nodes[2]
  have hblock : block joiningPlan = (block joiningPlan).take 2 ++
      (n, .assign "node_sum_out" (callOf vars n)) :: (block joiningPlan).drop 3 := rfl
  have hone : joining.Declares "one" "out" := ⟨_, List.mem_of_getElem? (i := 1) rfl, rfl, by decide⟩
  have hcode : joining.Declares "code" "text" :=
    ⟨_, List.mem_of_getElem? (i := 2) rfl, rfl, by decide⟩
  obtain ⟨-, hreads⟩ := wiring joining joiningPlan (.ofPlan joiningPlan)
    (Dict.ofList [("code", .names), ("log", .names), ("one", .names)]) hplan rfl
  obtain ⟨harguments, hcallee⟩ := hreads _ _ _ _ _ hblock rfl
  obtain ⟨c, hc, hwired⟩ := harguments "a" "node_one_out" List.mem_cons_self
  obtain ⟨c', hc', hwired'⟩ := hcallee "node_code_text" "add" rfl
  obtain rfl : _ = c := Option.some.inj ((rfl : _ = joining.incoming? "sum" "a").trans hc)
  obtain rfl : _ = c' := Option.some.inj ((rfl : _ = joining.incoming? "sum" "source").trans hc')
  exact ⟨hplan, _, _, _, _, _, hblock, rfl, rfl, List.mem_cons_self, hwired.assigned hone,
    hwired'.origin hcode⟩

/-- A graph in which a connection names an output that its origin does not declare.  The plain
name of this output is that of the output of the second node. -/
def straying : Graph where
  nodes := [
    ⟨"a", "f", [], [⟨"x", none⟩], none, none, none⟩,
    ⟨"a_b", "g", [], [⟨"c", none⟩], none, none, none⟩,
    ⟨"use", "h", [⟨"v", none, none⟩], [⟨"w", none⟩], none, none, none⟩]
  connections := [⟨"a", "b_c", "use", "v"⟩]
  valid := valid_of_fault?_eq_none (by decide)

/-- The plan of `straying`. -/
def strayingPlan : Plan where
  nodes := [
    ⟨"a", 0, "f", ["x"], [], .static "a", [2], 0⟩,
    ⟨"a_b", 1, "g", ["c"], [], .static "a_b", [], 0⟩,
    ⟨"use", 2, "h", ["w"], [("v", .connected "a" "b_c")], .static "use", [], 1⟩]

/-- A registry for `straying`. -/
def strayingRegistry : Registry :=
  Dict.ofList [("a", .const (.int 1)), ("a_b", .const (.int 2)), ("use", .collect)]

/-- A variable may be assigned by another node than the origin of the connection for which it is
read. -/
theorem wiring_strays :
    straying.plan = .ok strayingPlan ∧
      ∃ program, strayingPlan.program strayingRegistry = .ok program ∧
        ∃ before n line call, block strayingPlan = before ++ [(n, line)] ∧
          line.call? = some call ∧ ("v", .variable "node_a_b_c") ∈ call.arguments ∧
          straying.incoming? n.id "v" = some ⟨"a", "b_c", "use", "v"⟩ ∧
          (∃ e ∈ before, e.2.target? = some "node_a_b_c") ∧
          ∀ e ∈ before, e.2.target? = some "node_a_b_c" → e.1.id = "a_b" := by
  let n : PlannedNode := strayingPlan.nodes[2]
  have hblock : block strayingPlan = (block strayingPlan).take 2 ++
      [(n, .assign "node_use_w" (callOf (Variables.ofPlan strayingPlan) n))] := rfl
  exact ⟨rfl, _, rfl, _, _, _, _, hblock, rfl, List.mem_cons_self, rfl, by decide, by decide⟩

end Graph

end Dataflow

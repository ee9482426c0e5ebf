import Dataflow.Proofs.Graph.Description
import Dataflow.Proofs.Plan.Bytes
import Dataflow.Proofs.Plan.Planning

/-!
# Plans that were saved

What is loaded from the bytes of a plan is the plan with its literals read again
(`Plan.load_append`); a plan without doubles among its literals comes back as it was
(`Plan.load_save`).  The parts are read in the order in which they were written, so that each
lemma here is about one kind of part: a binding, a behavior source, a node.
-/

namespace Dataflow

open Bytes

/-! ## The numbers in the bytes -/

/-- The numbers that are written for a binding, after its form. -/
def Binding.sizes : Binding → List ℕ
  | connected node output => [node.utf8ByteSize, output.utf8ByteSize]
  | literal value => [value.jsonText.utf8ByteSize]
  | missing => []

/-- The numbers that are written for a behavior source, after its form. -/
def BehaviorSource.sizes : BehaviorSource → List ℕ
  | static key => [key.utf8ByteSize]
  | inline source => [source.utf8ByteSize]
  | upstream node output => [node.utf8ByteSize, output.utf8ByteSize]
  | external module name => [module.utf8ByteSize, name.utf8ByteSize]

/-- The numbers that are written for a node: positions, counts and the sizes of its parts. -/
def PlannedNode.sizes (n : PlannedNode) : List ℕ :=
  [n.id.utf8ByteSize, n.declared, n.name.utf8ByteSize, n.dependencyCount]
    ++ n.outputs.length :: n.outputs.map String.utf8ByteSize
    ++ n.arguments.length :: n.arguments.flatMap (fun a => a.1.utf8ByteSize :: a.2.sizes)
    ++ n.behavior.sizes
    ++ n.successors.length :: n.successors

/-- The numbers that are written for a plan. -/
def Plan.sizes (p : Plan) : List ℕ := p.size :: p.nodes.flatMap PlannedNode.sizes

/-- Every number of a plan, and every size of a part of it, is a machine word. -/
def Plan.FitsWords (p : Plan) : Prop := ∀ k ∈ p.sizes, k < 2 ^ 64

instance (p : Plan) : Decidable p.FitsWords := List.decidableBAll _ _

/-- The literals of a plan. -/
def Plan.literals (p : Plan) : List Value :=
  p.nodes.flatMap fun n => n.arguments.filterMap fun a =>
    match a.2 with
    | .literal value => some value
    | _ => none

lemma Plan.mem_literals {p : Plan} {v : Value} :
    v ∈ p.literals ↔ ∃ n ∈ p.nodes, ∃ a ∈ n.arguments, a.2 = .literal v := by
  simp only [literals, List.mem_flatMap, List.mem_filterMap]
  constructor
  · rintro ⟨n, hn, a, ha, hv⟩
    refine ⟨n, hn, a, ha, ?_⟩
    split at hv
    · rename_i heq
      rw [heq, Option.some.inj hv]
    · simp at hv
  · rintro ⟨n, hn, a, ha, hv⟩
    exact ⟨n, hn, a, ha, by rw [hv]⟩

/-! ## What is read again -/

/-- A binding whose literal was written and read; there is none if the literal cannot be read. -/
def Binding.reread? : Binding → Option Binding
  | literal v => if v.depth ≤ Json.maxDepth then v.reread?.map literal else none
  | b => some b

/-- A named binding whose literal was written and read. -/
def rereadArgument? (a : String × Binding) : Option (String × Binding) :=
  a.2.reread?.map fun b => (a.1, b)

/-- A node whose literals were written and read. -/
def PlannedNode.reread? (n : PlannedNode) : Option PlannedNode :=
  (n.arguments.mapM rereadArgument?).map fun arguments => { n with arguments }

/-- A plan whose literals were written and read. -/
def Plan.reread? (p : Plan) : Option Plan := (p.nodes.mapM PlannedNode.reread?).map Plan.mk

lemma Binding.reread?_eq_some_self_iff {b : Binding} : b.reread? = some b ↔
    ∀ v, b = literal v → v.depth ≤ Json.maxDepth ∧
      ∀ x ∈ v.doubles, Value.reread? (.float x) = some (.float x) := by
  cases b with
  | connected node output => simp [reread?]
  | missing => simp [reread?]
  | literal v =>
    rw [reread?]
    by_cases hdepth : v.depth ≤ Json.maxDepth
    · rw [if_pos hdepth]
      simp [hdepth, ← Value.reread?_eq_some_self_iff]
    · simp [hdepth]

lemma PlannedNode.reread?_eq_some_self_iff {n : PlannedNode} :
    n.reread? = some n ↔ ∀ a ∈ n.arguments, a.2.reread? = some a.2 := by
  have hself : n.reread? = some n ↔ n.arguments.mapM rereadArgument? = some n.arguments := by
    rw [reread?]
    cases n.arguments.mapM rereadArgument? with
    | none => simp
    | some arguments =>
      obtain ⟨id, declared, name, outputs, arguments', behavior, successors, dependencyCount⟩ := n
      simp
  rw [hself, mapM_eq_some_self_iff]
  refine forall₂_congr fun a _ => ?_
  rw [rereadArgument?]
  cases a.2.reread? <;> simp [Prod.ext_iff]

/-- A plan is the same after its literals were read again if they are not nested too deep and
all their doubles come back. -/
lemma Plan.reread?_eq_some_self_iff {p : Plan} : p.reread? = some p ↔
    ∀ v ∈ p.literals, v.depth ≤ Json.maxDepth ∧
      ∀ x ∈ v.doubles, Value.reread? (.float x) = some (.float x) := by
  have hself : p.reread? = some p ↔ p.nodes.mapM PlannedNode.reread? = some p.nodes := by
    rw [reread?]
    cases p.nodes.mapM PlannedNode.reread? with
    | none => simp
    | some nodes =>
      obtain ⟨nodes'⟩ := p
      simp
  rw [hself, mapM_eq_some_self_iff]
  simp only [PlannedNode.reread?_eq_some_self_iff, Binding.reread?_eq_some_self_iff, mem_literals]
  constructor
  · rintro h v ⟨n, hn, a, ha, hv⟩
    exact h n hn a ha v hv
  · intro h n hn a ha v hv
    exact h v ⟨n, hn, a, ha, hv⟩

/-- A plan without the arguments of its nodes. -/
def Plan.bare (p : Plan) : Plan := ⟨p.nodes.map fun n => { n with arguments := [] }⟩

/-- Only arguments change when the literals are read again. -/
lemma Plan.bare_of_reread? {p q : Plan} (h : p.reread? = some q) : q.bare = p.bare := by
  obtain ⟨nodes, hnodes, rfl⟩ := Option.map_eq_some_iff.1 h
  simp only [bare, Plan.mk.injEq]
  refine map_eq_of_mapM_eq_some (fun n m hm => ?_) hnodes
  obtain ⟨arguments, -, rfl⟩ := Option.map_eq_some_iff.1 hm
  rfl

/-- The check of the links does not look at arguments. -/
lemma Plan.linkFault?_bare (p : Plan) : p.bare.linkFault? = p.linkFault? := by
  simp only [linkFault?, misplaced?, miscounted?, edgesInto, size, bare, List.length_map,
    List.zipIdx_map, List.findSome?_map, List.flatMap_map, Function.comp_def, Prod.map_fst,
    Prod.map_snd, id]
  rfl

/-! ## Parts of nodes -/

lemma Binding.isSome_toBytes? {b : Binding} : b.toBytes?.isSome ↔ ∀ k ∈ b.sizes, k < 2 ^ 64 := by
  cases b <;> simp [toBytes?, sizes, isSome_concat?, isSome_ofText?, isSome_ofNat?]

lemma Binding.returns (b : Binding) : Returns b.toBytes? ofBytes? b.reread? := by
  cases b with
  | connected node output =>
    exact Returns.bind_some (returns_index (by decide))
      (Returns.bind_some returns_text (Returns.bind_some returns_text Returns.nil))
  | literal v =>
    refine Returns.bind_some (returns_index (by decide))
      (Returns.bind_some returns_text fun bytes hbytes rest => ?_)
    obtain rfl := Option.some.inj hbytes
    simp only [Value.alternativeOfJsonText?_jsonText, reread?]
    split
    · cases v.reread? <;> rfl
    · rfl
  | missing =>
    intro bytes hbytes rest
    rw [ofBytes?, returns_index (n := 2) (by decide) bytes hbytes]
    rfl

lemma BehaviorSource.isSome_toBytes? {b : BehaviorSource} :
    b.toBytes?.isSome ↔ ∀ k ∈ b.sizes, k < 2 ^ 64 := by
  cases b <;> simp [toBytes?, sizes, isSome_concat?, isSome_ofText?, isSome_ofNat?]

lemma BehaviorSource.returns (b : BehaviorSource) : Returns b.toBytes? ofBytes? (some b) := by
  cases b with
  | static key =>
    exact Returns.bind_some (returns_index (by decide))
      (Returns.bind_some returns_text Returns.nil)
  | inline source =>
    exact Returns.bind_some (returns_index (by decide))
      (Returns.bind_some returns_text Returns.nil)
  | upstream node output =>
    exact Returns.bind_some (returns_index (by decide))
      (Returns.bind_some returns_text (Returns.bind_some returns_text Returns.nil))
  | external module name =>
    exact Returns.bind_some (returns_index (by decide))
      (Returns.bind_some returns_text (Returns.bind_some returns_text Returns.nil))

/-! ## Nodes and plans -/

lemma PlannedNode.isSome_toBytes? {n : PlannedNode} :
    n.toBytes?.isSome ↔ ∀ k ∈ n.sizes, k < 2 ^ 64 := by
  simp only [toBytes?, sizes, isSome_concat?, isSome_ofText?, isSome_ofNat?, isSome_ofList?,
    List.forall_mem_cons, List.forall_mem_append, List.forall_mem_flatMap, List.forall_mem_map,
    Binding.isSome_toBytes?, BehaviorSource.isSome_toBytes?, List.not_mem_nil, IsEmpty.forall_iff,
    implies_true, and_true]
  tauto

lemma PlannedNode.returns (n : PlannedNode) : Returns n.toBytes? ofBytes? n.reread? := by
  have harguments : Returns
      (ofList? (fun a => concat? [ofText? a.1, a.2.toBytes?]) n.arguments) (list? readArgument?)
      (n.arguments.mapM rereadArgument?) := by
    refine returns_list fun a _ => Returns.bind_some returns_text ?_
    rw [rereadArgument?, Option.map_eq_bind]
    exact Returns.bind a.2.returns fun b _ => Returns.nil
  rw [reread?, Option.map_eq_bind]
  exact Returns.bind_some returns_text
    (Returns.bind_some returns_nat
      (Returns.bind_some returns_text
        (Returns.bind_some (returns_list_self (fun _ => returns_text) n.outputs)
          (Returns.bind harguments fun arguments _ =>
            (Returns.bind_some n.behavior.returns
              (Returns.bind_some (returns_list_self (fun _ => returns_nat) n.successors)
                (Returns.bind_some returns_nat Returns.nil)))))))

namespace Plan

lemma isSome_toBytes? {p : Plan} : p.toBytes?.isSome ↔ p.FitsWords := by
  simp only [toBytes?, isSome_ofList?, FitsWords, sizes, size, List.forall_mem_cons,
    List.forall_mem_flatMap, PlannedNode.isSome_toBytes?]

lemma exists_save_iff {p : Plan} : (∃ bytes, p.save = .ok bytes) ↔ p.FitsWords := by
  rw [← isSome_toBytes?, save]
  cases p.toBytes? <;> simp

/-- What is loaded from the bytes of a plan, whatever follows them. -/
theorem load_append {p : Plan} {bytes : List UInt8} (h : p.save = .ok bytes) (rest : List UInt8) :
    load (bytes ++ rest) =
      match p.reread? with
      | none => .error .decode
      | some q =>
        match p.linkFault? with
        | none => .ok q
        | some fault => .error (.inconsistent fault) := by
  have hwritten : p.toBytes? = some bytes := by
    rw [save] at h
    split at h
    · rename_i bytes' hbytes'
      rw [hbytes', Except.ok.inj h]
    · simp at h
  have hreturns : Returns p.toBytes? (list? PlannedNode.ofBytes?)
      (p.nodes.mapM PlannedNode.reread?) := returns_list fun n _ => n.returns
  rw [load, hreturns bytes hwritten rest, reread?]
  cases hnodes : p.nodes.mapM PlannedNode.reread? with
  | none => rfl
  | some nodes =>
    have hbare : (Plan.mk nodes).bare = p.bare := bare_of_reread? (by rw [reread?, hnodes]; rfl)
    have hfault : linkFault? ⟨nodes⟩ = p.linkFault? := by
      rw [← linkFault?_bare, hbare, linkFault?_bare]
    simp only [Option.map_some, hfault]
    cases p.linkFault? <;> rfl

/-- Loading a plan checks its links. -/
lemma linked_of_load {bytes : List UInt8} {p : Plan} (h : load bytes = .ok p) : p.Linked := by
  rw [load] at h
  split at h
  · simp at h
  · split at h
    · simp at h
    · rename_i hfault
      obtain rfl := Except.ok.inj h
      exact linkFault?_eq_none_iff.1 hfault

/-- A plan is saved, and its bytes are loaded as the same plan if its links are sound; with
unsound links they are rejected for the first fault. -/
lemma exists_save {p : Plan} (hwords : p.FitsWords)
    (hvalues : ∀ v ∈ p.literals, v.isFloatFree = true ∧ v.depth ≤ Json.maxDepth) :
    ∃ bytes, p.save = .ok bytes ∧ ∀ rest, load (bytes ++ rest) =
      match p.linkFault? with
      | none => .ok p
      | some fault => .error (.inconsistent fault) := by
  obtain ⟨bytes, hsave⟩ := exists_save_iff.2 hwords
  have hself : p.reread? = some p := by
    refine reread?_eq_some_self_iff.2 fun v hv => ⟨(hvalues v hv).2, ?_⟩
    rw [Value.doubles_eq_nil (hvalues v hv).1]
    simp
  refine ⟨bytes, hsave, fun rest => ?_⟩
  rw [load_append hsave, hself]

/-! ## Plans of graphs that were read -/

/-- The literals of a plan are defaults of its graph. -/
lemma exists_default_of_mem_literals {g : Graph} {p : Plan} (h : g.plan = .ok p) {v : Value}
    (hv : v ∈ p.literals) : ∃ node ∈ g.nodes, ∃ i ∈ node.inputs, i.default = some v := by
  obtain ⟨order, hby⟩ := Graph.exists_plannedBy h
  obtain ⟨n, hn, a, ha, hliteral⟩ := mem_literals.1 hv
  obtain ⟨k, hk⟩ := List.getElem?_of_mem hn
  obtain ⟨u, node, -, hnode, rfl⟩ := hby.getElem?_nodes_eq_some_iff.1 hk
  obtain ⟨i, hi, rfl⟩ := List.mem_map.1 ha
  refine ⟨node, List.mem_of_getElem? hnode, i, List.mem_of_mem_filter hi, ?_⟩
  simp only [Graph.bindingOf] at hliteral
  split at hliteral
  · simp at hliteral
  · split at hliteral
    · rename_i value hdefault
      rw [hdefault, Binding.literal.inj hliteral]
    · simp at hliteral

/-- **A plan comes back from its bytes**, whatever follows them, if no literal holds a double
or is nested too deep; unsound links are reported instead.  Plans of graphs that were read from
a text have sound links, and their literals are not nested too deep. -/
theorem load_save :
    (∀ p : Plan, p.FitsWords →
      (∀ v ∈ p.literals, v.isFloatFree = true ∧ v.depth ≤ Json.maxDepth) →
        ∃ bytes, p.save = .ok bytes ∧ ∀ rest, load (bytes ++ rest) =
          match p.linkFault? with
          | none => .ok p
          | some fault => .error (.inconsistent fault)) ∧
      ∀ (text : String) (g : Graph) (p : Plan), Graph.ofText text = .ok g → g.plan = .ok p →
        (∀ node ∈ g.nodes, ∀ i ∈ node.inputs, ∀ v, i.default = some v → v.isFloatFree = true) →
          p.FitsWords →
            ∃ bytes, p.save = .ok bytes ∧ ∀ rest, load (bytes ++ rest) = .ok p := by
  refine ⟨fun p hwords hvalues => exists_save hwords hvalues, ?_⟩
  intro text g p hg hp hfree hwords
  have hvalues : ∀ v ∈ p.literals, v.isFloatFree = true ∧ v.depth ≤ Json.maxDepth := by
    intro v hv
    obtain ⟨node, hnode, i, hi, hdefault⟩ := exists_default_of_mem_literals hp hv
    have hdepth := Graph.depth_default_le hg hnode hi hdefault
    exact ⟨hfree node hnode i hi v hdefault, hdepth.trans (by decide)⟩
  have hsound : p.linkFault? = none := by
    obtain ⟨order, hby⟩ := Graph.exists_plannedBy hp
    exact linkFault?_eq_none_iff.2 hby.linked
  obtain ⟨bytes, hsave, hload⟩ := exists_save hwords hvalues
  rw [hsound] at hload
  exact ⟨bytes, hsave, hload⟩

/-- A plan with every form of a binding and of a behavior source. -/
def varied : Plan where
  nodes := [
    ⟨"é", 300, "say \"hi\"\n", ["out", "text"], [("limit", .literal (.list [
        .null, .bool true, .int (-5), .text "\\\x01", .map (.cons "k" (.list []) trivial .nil)])),
      ("other", .missing)], .inline "def f():\n\treturn 1", [2, 2, 3], 0⟩,
    ⟨"m", 0, "load", [], [], .external "pkg.mod" "load", [2], 0⟩,
    ⟨"", 0x123456789, "f", ["out"], [("x", .connected "é" "out")], .upstream "é" "text", [], 3⟩,
    ⟨"s", 70000, "s", [], [("x", .literal (.text ""))], .static "s", [], 1⟩]

lemma exists_load_varied : ∃ bytes, load bytes = .ok varied := by
  obtain ⟨bytes, -, hload⟩ := exists_save (p := varied) (by decide +kernel) (by decide)
  have hsound : varied.linkFault? = none := by decide
  exact ⟨bytes ++ [], by rw [hload, hsound]⟩

/-- The same nodes the other way around, so that the links lead backward. -/
def reversed : Plan := ⟨varied.nodes.reverse⟩

/-- A description of a node whose input has a nested default. -/
def listing : Json :=
  .object [("nodes", .array [.object [
    ("id", .int 7), ("outputs", .array [.object [("name", .text "out")]]),
    ("inputs", .array [.object [("name", .text "x"),
      ("default", .object [("k", .array [.int 1, .null])])]])]])]

/-- The graph that `listing` describes. -/
def listed : Graph where
  nodes := [⟨"7", "7", [⟨"x", some (.map (.cons "k" (.list [.int 1, .null]) trivial .nil)), none⟩],
    [⟨"out", none⟩], none, none, none⟩]
  connections := []
  valid := Graph.valid_of_fault?_eq_none (by decide)

/-- The plan of `listed`. -/
def listedPlan : Plan where
  nodes := [⟨"7", 0, "7", ["out"],
    [("x", .literal (.map (.cons "k" (.list [.int 1, .null]) trivial .nil)))], .static "7", [], 0⟩]

theorem load_save_varied :
    (∃ bytes, varied.save = .ok bytes ∧ ∀ rest, load (bytes ++ rest) = .ok varied) ∧
      (∃ bytes, reversed.save = .ok bytes ∧
        ∀ rest, load (bytes ++ rest) = .error (.inconsistent (.misplaced "m" 2 2))) ∧
      listed.plan = .ok listedPlan ∧
      ∃ bytes, listedPlan.save = .ok bytes ∧ ∀ rest, load (bytes ++ rest) = .ok listedPlan := by
  have hsound : varied.linkFault? = none := by decide
  have hfault : reversed.linkFault? = some (.misplaced "m" 2 2) := by decide +kernel
  have hvaried := load_save.1 varied (by decide +kernel) (by decide)
  have hreversed := load_save.1 reversed (by decide +kernel) (by decide)
  rw [hsound] at hvaried
  rw [hfault] at hreversed
  have htext : Graph.ofText listing.compact = .ok listed := by
    rw [Graph.ofText, Description.partsOfText, Description.ofText?,
      Json.scan?_compact (show listing.isExact = true by decide)]
    rfl
  have hplan : listed.plan = .ok listedPlan := rfl
  have hfree : ∀ node ∈ listed.nodes, ∀ i ∈ node.inputs, ∀ v, i.default = some v →
      v.isFloatFree = true := by
    intro node hnode i hi v hv
    obtain rfl := List.mem_singleton.1 hnode
    obtain rfl := List.mem_singleton.1 hi
    obtain rfl := Option.some.inj hv
    rfl
  exact ⟨hvaried, hreversed, hplan,
    load_save.2 listing.compact listed listedPlan htext hplan hfree (by decide +kernel)⟩

end Plan

end Dataflow

import Dataflow.Proofs.Dict
import Dataflow.Proofs.Run.Outcome

/-!
# What a plan comes to

`Plan.settled` settles the nodes of a plan one after the other.  If the references of the plan
are backed by links that lead forward, the outputs that a node reads are there already when its
turn comes, so that every node is settled by the final outputs of the plan (`Plan.settled_eq`).
If the ids are distinct besides, a report has under the id of a node what is stored at its
place, and a reference to the node reads the same.
-/

namespace Dataflow

namespace Plan

variable {env : Environment} {p : Plan}

/-- The given nodes settled one after the other, behind those that are settled before. -/
def settleFrom (env : Environment) (p : Plan) (before : List Settled) :
    List PlannedNode → List Settled
  | [] => before
  | n :: rest =>
    p.settleFrom env
      (before ++ [n.settle env (p.storedValue (Settled.slots env.policy before))]) rest

/-- The nodes of a plan, settled in its order. -/
def settled (env : Environment) (p : Plan) : List Settled := p.settleFrom env [] p.nodes

/-- The outputs of all nodes of a plan. -/
def finalSlots (env : Environment) (p : Plan) : Slots := Settled.slots env.policy (p.settled env)

/-- What the nodes of a plan have put out in the end. -/
def finalValues (env : Environment) (p : Plan) : Available := p.storedValue (p.finalSlots env)

lemma settleFrom_append (before : List Settled) (l r : List PlannedNode) :
    p.settleFrom env before (l ++ r) = p.settleFrom env (p.settleFrom env before l) r := by
  induction l generalizing before with
  | nil => rfl
  | cons n l ih => exact ih _

lemma prefix_settleFrom (env : Environment) (p : Plan) (before : List Settled)
    (nodes : List PlannedNode) : before <+: p.settleFrom env before nodes := by
  induction nodes generalizing before with
  | nil => exact List.prefix_rfl
  | cons n nodes ih => exact (List.prefix_append _ _).trans (ih _)

lemma length_settleFrom (before : List Settled) (nodes : List PlannedNode) :
    (p.settleFrom env before nodes).length = before.length + nodes.length := by
  induction nodes generalizing before with
  | nil => rfl
  | cons n nodes ih =>
    rw [settleFrom, ih]
    simp only [List.length_append, List.length_cons, List.length_nil]
    omega

@[simp] lemma length_settled : (p.settled env).length = p.size := by
  rw [settled, length_settleFrom]
  simp [size]

/-- Each node is settled by the ones before it. -/
lemma getElem?_settled {i : ℕ} {n : PlannedNode} (hn : p.nodes[i]? = some n) :
    (p.settled env)[i]? = some (n.settle env
      (p.storedValue (Settled.slots env.policy ((p.settled env).take i)))) := by
  obtain ⟨hi, hget⟩ := List.getElem?_eq_some_iff.1 hn
  have hsplit : p.nodes = p.nodes.take i ++ n :: p.nodes.drop (i + 1) := by
    rw [← hget, List.getElem_cons_drop, List.take_append_drop]
  -- the nodes in front of the place, and this one settled by them
  let before := p.settleFrom env [] (p.nodes.take i)
  let s := n.settle env (p.storedValue (Settled.slots env.policy before))
  have hlen : before.length = i := by
    rw [length_settleFrom, List.length_take]
    simp only [List.length_nil]
    omega
  have hsettled : p.settled env = p.settleFrom env (before ++ [s]) (p.nodes.drop (i + 1)) := by
    rw [settled]
    conv_lhs => rw [hsplit]
    rw [settleFrom_append]
    rfl
  obtain ⟨rest, hrest⟩ := prefix_settleFrom env p (before ++ [s]) (p.nodes.drop (i + 1))
  rw [hsettled, ← hrest, List.append_assoc]
  have htake : (before ++ ([s] ++ rest)).take i = before := by
    rw [← hlen, List.take_left]
  rw [htake, List.getElem?_append_right (by omega), hlen]
  simp [s]

/-- With backed references, each node of a plan is settled by the final outputs. -/
lemma settled_eq (hp : p.Linked) (hb : p.Backed) :
    p.settled env = p.nodes.map fun n => n.settle env (p.finalValues env) := by
  refine List.ext_getElem? fun i => ?_
  rw [List.getElem?_map]
  cases hn : p.nodes[i]? with
  | none =>
    rw [List.getElem?_eq_none_iff] at hn
    rw [Option.map_none, List.getElem?_eq_none_iff, length_settled]
    exact hn
  | some n =>
    rw [getElem?_settled hn, Option.map_some]
    refine congrArg some (PlannedNode.settle_congr fun r hr => ?_)
    -- the node that is referred to stands before this one
    obtain ⟨j, m, hj, hm, hs⟩ := hb i n hn r hr
    have hji := (hp.forward hm i hs).1
    simp only [finalValues, storedValue, finalSlots, Settled.slots, hj, Option.bind_eq_bind,
      Option.bind_some, List.getElem?_take_of_lt hji]

lemma finalSlots_eq (env : Environment) (hp : p.Linked) (hb : p.Backed) {i : ℕ} {n : PlannedNode}
    (hn : p.nodes[i]? = some n) :
    p.finalSlots env i = some ((n.settle env (p.finalValues env)).outputs env.policy) := by
  rw [finalSlots, Settled.slots, settled_eq hp hb, List.getElem?_map, hn]
  rfl

/-- The report of a run in which all nodes are settled. -/
def settledReport (env : Environment) (p : Plan) : Report where
  outputs := p.collected (p.finalSlots env)
  failures := (p.settled env).filterMap (Settled.failure? env.policy)
  cancelled := false

/-! ## Reports -/

variable {slots : Slots} {i : ℕ} {n : PlannedNode} {outputs : Outputs}

lemma keys_collected_sublist (p : Plan) (slots : Slots) :
    ((p.nodes.zipIdx.filterMap fun (n, place) =>
      (slots place).map fun o => (n.id, o)).map Prod.fst).Sublist p.order := by
  -- the places of a rest of the plan start at `k`
  have key : ∀ (nodes : List PlannedNode) (k : ℕ),
      (((nodes.zipIdx k).filterMap fun (n, place) =>
        (slots place).map fun o => (n.id, o)).map Prod.fst).Sublist
          (nodes.map PlannedNode.id) := by
    intro nodes
    induction nodes with
    | nil => intro k; simp
    | cons n nodes ih =>
      intro k
      rw [List.zipIdx_cons, List.map_cons]
      cases hslot : slots k with
      | none =>
        rw [List.filterMap_cons_none (by simp [hslot])]
        exact (ih (k + 1)).cons _
      | some o =>
        rw [List.filterMap_cons_some (b := (n.id, o)) (by simp [hslot]), List.map_cons]
        exact (ih (k + 1)).cons_cons _
  exact key p.nodes 0

/-- A report has what is stored at the place of a node under its id. -/
lemma find?_collected (hids : p.order.Nodup) (hn : p.nodes[i]? = some n)
    (hslot : slots i = some outputs) : (p.collected slots).find? n.id = some outputs := by
  refine Dict.find?_ofList_of_mem (hids.sublist (keys_collected_sublist p slots)) ?_
  refine List.mem_filterMap.2 ⟨(n, i), List.mk_mem_zipIdx_iff_getElem?.2 hn, ?_⟩
  simp [hslot]

/-- A reference reads what is stored at the place of the node that it names. -/
lemma storedValue_eq (hids : p.order.Nodup) (hn : p.nodes[i]? = some n)
    (hslot : slots i = some outputs) (output : String) :
    p.storedValue slots n.id output = outputs.find? output := by
  have hlast : p.lastPosition? n.id = some i := (lastPosition?_eq_some_iff hids).2 ⟨n, hn, rfl⟩
  simp [storedValue, hlast, hslot]

/-- The final values of a node are those of its outputs. -/
lemma finalValues_eq_find? (hids : p.order.Nodup) (hp : p.Linked) (hb : p.Backed)
    (hn : p.nodes[i]? = some n) (output : String) :
    p.finalValues env n.id output =
      ((n.settle env (p.finalValues env)).outputs env.policy).find? output :=
  storedValue_eq hids hn (finalSlots_eq env hp hb hn) output

/-- The final values of a node that does not fail are those of its outcome. -/
lemma finalValues_eq (hids : p.order.Nodup) (hp : p.Linked) (hb : p.Backed)
    (hn : p.nodes[i]? = some n)
    (houtcome : (n.settle env (p.finalValues env)).outcome env.policy = .ok outputs)
    (output : String) : p.finalValues env n.id output = outputs.find? output := by
  have hslot := finalSlots_eq env hp hb hn
  rw [Settled.outputs, houtcome] at hslot
  exact storedValue_eq hids hn hslot output

/-- The report of a run that settles all nodes has the final values. -/
lemma output?_settledReport (hids : p.order.Nodup) (hp : p.Linked) (hb : p.Backed)
    (hn : p.nodes[i]? = some n) (output : String) :
    (p.settledReport env).output? n.id output = p.finalValues env n.id output := by
  have hslot := finalSlots_eq env hp hb hn
  rw [Report.output?, settledReport, find?_collected hids hn hslot, finalValues,
    storedValue_eq hids hn hslot]
  rfl

end Plan

end Dataflow

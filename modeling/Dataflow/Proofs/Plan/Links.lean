import Mathlib.Data.Option.Basic
import Dataflow.Plan.Artifact
import Dataflow.Proofs.Graph.Position

/-!
# Links and references

A plan says twice who waits for whom: by the successors of its nodes, with a count at each
node, and by the outputs of other nodes that the arguments and the function of a node refer to.
The links are sound (`Plan.Linked`) if successors come later and the counts add up, which is
what a plan is checked for when it is loaded.  The references are backed (`Plan.Backed`) if
each of them goes to a node that has the referring node among its successors.
-/

namespace Dataflow

/-! ## References -/

/-- The output that a binding refers to. -/
def Binding.reference? : Binding → Option (String × String)
  | connected node output => some (node, output)
  | literal _ | missing => none

/-- The output that a behavior source refers to. -/
def BehaviorSource.reference? : BehaviorSource → Option (String × String)
  | upstream node output => some (node, output)
  | static _ | inline _ | external .. => none

/-- The outputs of other nodes that a node reads. -/
def PlannedNode.references (n : PlannedNode) : List (String × String) :=
  n.arguments.filterMap (fun a => a.2.reference?) ++ n.behavior.reference?.toList

lemma PlannedNode.mem_references {n : PlannedNode} {id output : String} :
    (id, output) ∈ n.references ↔
      (∃ input, (input, .connected id output) ∈ n.arguments) ∨
        n.behavior = .upstream id output := by
  rw [references, List.mem_append, List.mem_filterMap, Option.mem_toList]
  refine or_congr ⟨?_, ?_⟩ ?_
  · rintro ⟨⟨input, binding⟩, hmem, href⟩
    cases binding with
    | connected node out =>
      obtain ⟨rfl, rfl⟩ : node = id ∧ out = output := by simpa [Binding.reference?] using href
      exact ⟨input, hmem⟩
    | literal _ => simp [Binding.reference?] at href
    | missing => simp [Binding.reference?] at href
  · rintro ⟨input, hmem⟩
    exact ⟨_, hmem, rfl⟩
  · cases n.behavior <;> simp [BehaviorSource.reference?]

namespace Plan

variable {p : Plan} {n : PlannedNode} {i : ℕ}

/-! ## Places -/

lemma lt_size_of_getElem? (hn : p.nodes[i]? = some n) : i < p.size :=
  (List.getElem?_eq_some_iff.1 hn).1

lemma exists_node (hi : i < p.size) : ∃ n, p.nodes[i]? = some n :=
  ⟨_, List.getElem?_eq_getElem hi⟩

lemma position?_eq_some_iff (hp : p.order.Nodup) {id : String} :
    p.position? id = some i ↔ ∃ n, p.nodes[i]? = some n ∧ n.id = id :=
  findIdx?_key_eq_some_iff hp

/-- With distinct ids, nodes of one id are at one place. -/
lemma place_unique {m : PlannedNode} {j : ℕ} (hp : p.order.Nodup) (hn : p.nodes[i]? = some n)
    (hm : p.nodes[j]? = some m) (hid : n.id = m.id) : i = j := by
  have hi := (position?_eq_some_iff hp).2 ⟨n, hn, hid⟩
  have hj := (position?_eq_some_iff hp).2 ⟨m, hm, rfl⟩
  exact Option.some.inj (hi.symm.trans hj)

lemma lastPosition?_eq_some {id : String} (h : p.lastPosition? id = some i) :
    ∃ n, p.nodes[i]? = some n ∧ n.id = id := by
  obtain ⟨⟨n, j⟩, hlast, rfl⟩ := Option.map_eq_some_iff.1 h
  obtain ⟨hmem, hid⟩ := List.mem_filter.1 (List.mem_of_getLast? hlast)
  exact ⟨n, List.mk_mem_zipIdx_iff_getElem?.1 hmem, by simpa using hid⟩

/-- With distinct ids, the last node with an id is the only one. -/
lemma lastPosition?_eq_some_iff (hp : p.order.Nodup) {id : String} :
    p.lastPosition? id = some i ↔ ∃ n, p.nodes[i]? = some n ∧ n.id = id := by
  refine ⟨lastPosition?_eq_some, ?_⟩
  rintro ⟨n, hn, rfl⟩
  have hmem : (n, i) ∈ p.nodes.zipIdx.filter fun m => m.1.id = n.id :=
    List.mem_filter.2 ⟨List.mk_mem_zipIdx_iff_getElem?.2 hn, by simp⟩
  -- some place is found, and it can only be that of `n`
  obtain ⟨j, hj⟩ : ∃ j, p.lastPosition? n.id = some j := by
    cases hlast : (p.nodes.zipIdx.filter fun m => m.1.id = n.id).getLast? with
    | none =>
      rw [List.getLast?_eq_none_iff.1 hlast] at hmem
      simp at hmem
    | some m => exact ⟨m.2, by rw [lastPosition?, hlast]; rfl⟩
  obtain ⟨m, hm, hid⟩ := lastPosition?_eq_some hj
  rw [hj, place_unique hp hm hn hid]

/-! ## Links -/

/-- The links of a plan: one pair of places for each edge. -/
def links (p : Plan) : List (ℕ × ℕ) :=
  p.nodes.zipIdx.flatMap fun n => n.1.successors.map fun s => (n.2, s)

lemma mem_links {s : ℕ} : (i, s) ∈ p.links ↔ ∃ n, p.nodes[i]? = some n ∧ s ∈ n.successors := by
  simp only [links, List.mem_flatMap, List.mem_map, Prod.mk.injEq]
  constructor
  · rintro ⟨⟨n, j⟩, hmem, t, ht, rfl, rfl⟩
    exact ⟨n, List.mk_mem_zipIdx_iff_getElem?.1 hmem, ht⟩
  · rintro ⟨n, hn, hs⟩
    exact ⟨(n, i), List.mk_mem_zipIdx_iff_getElem?.2 hn, s, hs, rfl, rfl⟩

/-- A link is there as often as its target is a successor of its origin. -/
lemma count_links (p : Plan) (i s : ℕ) :
    p.links.count (i, s) = p.nodes[i]?.elim 0 fun n => n.successors.count s := by
  have hnode : ∀ (l : List ℕ) (k : ℕ),
      (l.map fun t => (k, t)).count (i, s) = if k = i then l.count s else 0 := by
    intro l k
    rw [List.count_eq_countP, List.countP_map]
    by_cases hk : k = i
    · rw [if_pos hk, List.count_eq_countP]
      exact List.countP_congr fun t _ => by simp [hk]
    · rw [if_neg hk, List.countP_eq_zero]
      simp [hk]
  -- the places of a rest of the plan start at `k`
  have key : ∀ (nodes : List PlannedNode) (k : ℕ),
      ((nodes.zipIdx k).flatMap fun n => n.1.successors.map fun t => (n.2, t)).count (i, s) =
        if k ≤ i then nodes[i - k]?.elim 0 fun n => n.successors.count s else 0 := by
    intro nodes
    induction nodes with
    | nil => intro k; simp
    | cons n nodes ih =>
      intro k
      rw [List.zipIdx_cons, List.flatMap_cons, List.count_append, hnode, ih]
      rcases Nat.lt_trichotomy k i with hlt | rfl | hgt
      · obtain ⟨d, rfl⟩ : ∃ d, i = k + 1 + d := ⟨i - (k + 1), by omega⟩
        rw [if_neg (by omega), if_pos (by omega), if_pos (by omega),
          show k + 1 + d - k = d + 1 by omega, show k + 1 + d - (k + 1) = d by omega,
          List.getElem?_cons_succ, Nat.zero_add]
      · simp
      · rw [if_neg (by omega), if_neg (by omega), if_neg (by omega)]
  rw [links, key p.nodes 0, if_pos (Nat.zero_le i), Nat.sub_zero]

lemma map_snd_links (p : Plan) :
    p.links.map Prod.snd = p.nodes.flatMap PlannedNode.successors := by
  rw [links, List.map_flatMap]
  simp only [List.map_map, Function.comp_def, List.map_id']
  rw [← List.flatMap_map (f := Prod.fst) (g := PlannedNode.successors), List.zipIdx_map_fst]

/-- The links of a plan lead forward, and the counts of its nodes agree with them. -/
structure Linked (p : Plan) : Prop where
  forward : ∀ {i n}, p.nodes[i]? = some n → ∀ s ∈ n.successors, i < s ∧ s < p.size
  counted : ∀ {i n}, p.nodes[i]? = some n → n.dependencyCount = p.edgesInto i

lemma misplaced?_eq_none_iff :
    p.misplaced? n i = none ↔ ∀ s ∈ n.successors, i < s ∧ s < p.size := by
  simp only [misplaced?, Option.map_eq_none_iff, List.find?_eq_none, Bool.or_eq_true,
    decide_eq_true_eq, not_or, Nat.not_le]

lemma miscounted?_eq_none_iff :
    p.miscounted? n i = none ↔ n.dependencyCount = p.edgesInto i := by
  simp only [miscounted?]
  split <;> simp_all

/-- The check of a loaded plan finds no fault exactly in the plans with sound links. -/
lemma linkFault?_eq_none_iff : p.linkFault? = none ↔ p.Linked := by
  have hall : ∀ f : PlannedNode × ℕ → Option LinkFault,
      p.nodes.zipIdx.findSome? f = none ↔ ∀ i n, p.nodes[i]? = some n → f (n, i) = none := by
    intro f
    rw [List.findSome?_eq_none_iff]
    constructor
    · intro h i n hn
      exact h (n, i) (List.mk_mem_zipIdx_iff_getElem?.2 hn)
    · rintro h ⟨n, i⟩ hmem
      exact h i n (List.mk_mem_zipIdx_iff_getElem?.1 hmem)
  rw [linkFault?, Option.orElse_eq_none, hall, hall]
  simp only [misplaced?_eq_none_iff, miscounted?_eq_none_iff]
  exact ⟨fun h => ⟨fun {i n} => h.1 i n, fun {i n} => h.2 i n⟩, fun h => ⟨@h.forward, @h.counted⟩⟩

/-- Every reference of a node names a declared output. -/
def Declared (p : Plan) : Prop :=
  ∀ n ∈ p.nodes, ∀ r ∈ n.references, ∃ m ∈ p.nodes, m.id = r.1 ∧ r.2 ∈ m.outputs

instance (p : Plan) : Decidable p.Declared :=
  inferInstanceAs (Decidable (∀ n ∈ p.nodes, ∀ r ∈ n.references,
    ∃ m ∈ p.nodes, m.id = r.1 ∧ r.2 ∈ m.outputs))

/-- Every reference of a node goes to a node that has it among its successors. -/
def Backed (p : Plan) : Prop :=
  ∀ i n, p.nodes[i]? = some n → ∀ r ∈ n.references,
    ∃ j m, p.lastPosition? r.1 = some j ∧ p.nodes[j]? = some m ∧ i ∈ m.successors

end Plan

end Dataflow

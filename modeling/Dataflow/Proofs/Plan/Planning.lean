import Mathlib.Data.List.Perm.Basic
import Dataflow.Proofs.Plan.Links
import Dataflow.Proofs.Schedule.Order

/-!
# Plans of graphs

A plan lists the nodes of a graph by an order of their places, and its links are the edges of
the graph under the renumbering from declaration places to plan places, one for one
(`Graph.links_perm`).  From this follow the counts, the direction of the links, and that each
reference of a planned node goes along one of them.
-/

namespace Dataflow

/-! ## Lists -/

/-- Where a partial function is defined on all of a list, it keeps the places. -/
lemma getElem?_filterMap_of_isSome {α β : Type} {f : α → Option β} {l : List α}
    (h : ∀ a ∈ l, ∃ b, f a = some b) (i : ℕ) : (l.filterMap f)[i]? = l[i]?.bind f := by
  induction l generalizing i with
  | nil => rfl
  | cons a l ih =>
    obtain ⟨b, hb⟩ := h a List.mem_cons_self
    rw [List.filterMap_cons_some hb]
    cases i with
    | zero => simp [hb]
    | succ i => simpa using ih (fun c hc => h c (List.mem_cons_of_mem _ hc)) i

namespace Graph

variable {g : Graph} {p : Plan} {order : List ℕ}

/-! ## The nodes of a plan -/

lemma plan_eq_ok_iff :
    g.plan = .ok p ↔ ∃ order, g.topologicalOrder = .ok order ∧
      p = ⟨order.filterMap fun v => g.nodes[v]?.map (g.planned g.dependencies order v)⟩ := by
  unfold plan
  cases g.topologicalOrder with
  | error c => simp [bind, Except.bind]
  | ok order => simp [bind, Except.bind, pure, Except.pure, eq_comm]

lemma plan_eq_error_iff {c : Cycle} : g.plan = .error c ↔ g.topologicalOrder = .error c := by
  unfold plan
  cases g.topologicalOrder with
  | error c => simp [bind, Except.bind]
  | ok order => simp [bind, Except.bind, pure, Except.pure]

/-- A plan is made along an order. -/
structure PlannedBy (g : Graph) (order : List ℕ) (p : Plan) : Prop where
  order_ok : g.topologicalOrder = .ok order
  nodes_eq : p.nodes = order.filterMap fun v =>
    g.nodes[v]?.map (g.planned g.dependencies order v)

lemma exists_plannedBy (h : g.plan = .ok p) : ∃ order, g.PlannedBy order p := by
  obtain ⟨order, horder, rfl⟩ := plan_eq_ok_iff.1 h
  exact ⟨order, horder, rfl⟩

namespace PlannedBy

lemma mem_order (h : g.PlannedBy order p) {v : ℕ} : v ∈ order ↔ v < g.size := by
  rw [(order_perm h.order_ok).mem_iff, List.mem_range]

lemma order_nodup (h : g.PlannedBy order p) : order.Nodup :=
  (order_perm h.order_ok).nodup_iff.2 List.nodup_range

lemma getElem?_nodes (h : g.PlannedBy order p) (i : ℕ) :
    p.nodes[i]? = order[i]?.bind fun v =>
      g.nodes[v]?.map (g.planned g.dependencies order v) := by
  rw [h.nodes_eq]
  refine getElem?_filterMap_of_isSome (fun v hv => ?_) i
  have hlt : v < g.nodes.length := h.mem_order.1 hv
  exact ⟨_, by rw [List.getElem?_eq_getElem hlt]; rfl⟩

/-- The node at a place of the plan is the one declared at the place that the order has
there. -/
lemma getElem?_nodes_eq_some_iff (h : g.PlannedBy order p) {i : ℕ} {n : PlannedNode} :
    p.nodes[i]? = some n ↔ ∃ v node, order[i]? = some v ∧ g.nodes[v]? = some node ∧
      n = g.planned g.dependencies order v node := by
  rw [h.getElem?_nodes, Option.bind_eq_some_iff]
  constructor
  · rintro ⟨v, hv, hmap⟩
    obtain ⟨node, hnode, rfl⟩ := Option.map_eq_some_iff.1 hmap
    exact ⟨v, node, hv, hnode, rfl⟩
  · rintro ⟨v, node, hv, hnode, rfl⟩
    exact ⟨v, hv, by rw [hnode]; rfl⟩

lemma size_eq (h : g.PlannedBy order p) : p.size = order.length := by
  have hlen : ∀ i, i < p.size ↔ i < order.length := by
    intro i
    constructor
    · intro hi
      obtain ⟨n, hn⟩ := Plan.exists_node hi
      obtain ⟨v, node, hv, -⟩ := h.getElem?_nodes_eq_some_iff.1 hn
      exact (List.getElem?_eq_some_iff.1 hv).1
    · intro hi
      have hv : order[i]? = some order[i] := List.getElem?_eq_getElem hi
      have hlt : order[i] < g.nodes.length := h.mem_order.1 (List.getElem_mem hi)
      exact Plan.lt_size_of_getElem? (h.getElem?_nodes_eq_some_iff.2
        ⟨_, _, hv, List.getElem?_eq_getElem hlt, rfl⟩)
  have h₁ := hlen p.size
  have h₂ := hlen order.length
  omega

lemma idxOf_lt (h : g.PlannedBy order p) {v : ℕ} (hv : v < g.size) : order.idxOf v < p.size := by
  rw [h.size_eq]
  exact List.idxOf_lt_length_of_mem (h.mem_order.2 hv)

/-- A place of the plan is the index in the order of the place of declaration. -/
lemma idxOf_eq (h : g.PlannedBy order p) {i v : ℕ} (hv : order[i]? = some v) :
    order.idxOf v = i := by
  obtain ⟨hi, rfl⟩ := List.getElem?_eq_some_iff.1 hv
  exact h.order_nodup.idxOf_getElem i hi

lemma getElem?_idxOf (h : g.PlannedBy order p) {v : ℕ} (hv : v < g.size) :
    order[order.idxOf v]? = some v := by
  rw [List.getElem?_eq_getElem (List.idxOf_lt_length_of_mem (h.mem_order.2 hv))]
  exact congrArg some (List.getElem_idxOf _)

/-! ### Ids -/

lemma order_eq (h : g.PlannedBy order p) :
    p.order = order.filterMap fun v => g.nodes[v]?.map Node.id := by
  rw [Plan.order, h.nodes_eq, List.map_filterMap]
  refine List.filterMap_congr fun v _ => ?_
  rw [Option.map_map]
  rfl

/-- A plan has the ids of its graph. -/
lemma ids_perm (h : g.PlannedBy order p) : p.order.Perm (g.nodes.map Node.id) := by
  rw [h.order_eq, ← idsAt_range g]
  exact (order_perm h.order_ok).filterMap _

lemma ids_nodup (h : g.PlannedBy order p) : p.order.Nodup :=
  h.ids_perm.nodup_iff.2 g.valid.ids_nodup

/-- The place in the plan of a node declared at a given place. -/
lemma position?_eq (h : g.PlannedBy order p) {id : String} {v : ℕ}
    (hv : g.position? id = some v) : p.position? id = some (order.idxOf v) := by
  obtain ⟨node, hnode, rfl⟩ := Graph.position?_eq_some_iff.1 hv
  have hn := h.getElem?_nodes_eq_some_iff.2
    ⟨v, node, h.getElem?_idxOf (lt_size_of_position? hv), hnode, rfl⟩
  exact (Plan.position?_eq_some_iff h.ids_nodup).2 ⟨_, hn, rfl⟩

/-! ### Links -/

/-- An edge leaves the node at a place of the plan if its origin has that place. -/
lemma fst_eq_iff (h : g.PlannedBy order p) {i v : ℕ} (hv : order[i]? = some v) {e : ℕ × ℕ}
    (he : e ∈ g.dependencies.edges) : e.1 = v ↔ order.idxOf e.1 = i := by
  constructor
  · rintro rfl
    exact h.idxOf_eq hv
  · rintro rfl
    rw [h.getElem?_idxOf (edges_lt he).1] at hv
    exact Option.some.inj hv

/-- The same for the node that an edge enters. -/
lemma snd_eq_iff (h : g.PlannedBy order p) {i v : ℕ} (hv : order[i]? = some v) {e : ℕ × ℕ}
    (he : e ∈ g.dependencies.edges) : e.2 = v ↔ order.idxOf e.2 = i := by
  constructor
  · rintro rfl
    exact h.idxOf_eq hv
  · rintro rfl
    rw [h.getElem?_idxOf (edges_lt he).2] at hv
    exact Option.some.inj hv

/-- The links of a plan are the edges of its graph with new numbers. -/
lemma links_perm_edges (h : g.PlannedBy order p) :
    p.links.Perm (g.dependencies.edges.map fun e => (order.idxOf e.1, order.idxOf e.2)) := by
  rw [List.perm_iff_count]
  rintro ⟨i, s⟩
  rw [Plan.count_links, List.count_eq_countP, List.countP_map]
  cases hn : p.nodes[i]? with
  | none =>
    -- no node has this place, and no edge leaves from it
    rw [Option.elim_none, eq_comm, List.countP_eq_zero]
    intro e he hcount
    obtain ⟨hi, -⟩ : order.idxOf e.1 = i ∧ order.idxOf e.2 = s := by simpa using hcount
    have hlt := h.idxOf_lt (edges_lt he).1
    rw [hi] at hlt
    obtain ⟨n, hn'⟩ := Plan.exists_node hlt
    rw [hn] at hn'
    simp at hn'
  | some n =>
    obtain ⟨v, node, hv, -, rfl⟩ := h.getElem?_nodes_eq_some_iff.1 hn
    -- an edge leads from place `i` to place `s` if it leaves the node at `i` and becomes `s`
    rw [Option.elim_some, planned, List.count_eq_countP, List.countP_map, Dependencies.successors,
      List.countP_filterMap]
    refine List.countP_congr fun e he => ?_
    have hiff := h.fst_eq_iff hv he
    by_cases hev : e.1 = v
    · simp [hev, ← hiff.1 hev]
    · simp [hev, mt hiff.2 hev]

/-- The links of a plan are the connections of its graph, by the places of their ends. -/
lemma links_perm (h : g.PlannedBy order p) :
    (p.links.map fun l => (some l.1, some l.2)).Perm
      (g.connections.map fun c => (p.position? c.fromNode, p.position? c.toNode)) := by
  have hplaces : g.connections.map (fun c => (p.position? c.fromNode, p.position? c.toNode)) =
      (g.connections.map fun c => (g.position? c.fromNode, g.position? c.toNode)).map
        fun e => (e.1.map order.idxOf, e.2.map order.idxOf) := by
    rw [List.map_map]
    refine List.map_congr_left fun c hc => ?_
    obtain ⟨u, v, hu, hv⟩ := exists_positions hc
    simp [hu, hv, h.position?_eq hu, h.position?_eq hv]
  rw [hplaces, ← map_edges, List.map_map]
  have hperm := h.links_perm_edges.map fun l : ℕ × ℕ => (some l.1, some l.2)
  rw [List.map_map] at hperm
  exact hperm

lemma forward (h : g.PlannedBy order p) {i s : ℕ} {n : PlannedNode} (hn : p.nodes[i]? = some n)
    (hs : s ∈ n.successors) : i < s ∧ s < p.size := by
  have hlink : (i, s) ∈ p.links := Plan.mem_links.2 ⟨n, hn, hs⟩
  obtain ⟨e, he, heq⟩ := List.mem_map.1 (h.links_perm_edges.mem_iff.1 hlink)
  obtain ⟨rfl, rfl⟩ : order.idxOf e.1 = i ∧ order.idxOf e.2 = s := by simpa using heq
  exact ⟨idxOf_lt_of_edge h.order_ok he, h.idxOf_lt (edges_lt he).2⟩

lemma counted (h : g.PlannedBy order p) {i : ℕ} {n : PlannedNode} (hn : p.nodes[i]? = some n) :
    n.dependencyCount = p.edgesInto i := by
  obtain ⟨v, node, hv, -, rfl⟩ := h.getElem?_nodes_eq_some_iff.1 hn
  have hcount := (h.links_perm_edges.map Prod.snd).count_eq i
  rw [Plan.map_snd_links, List.map_map, List.count_eq_countP (l := List.map _ _),
    List.countP_map] at hcount
  rw [Plan.edgesInto, hcount, planned, Dependencies.inDegree]
  refine List.countP_congr fun e he => ?_
  simpa using h.snd_eq_iff hv he

/-- The links of a plan of a graph are sound. -/
lemma linked (h : g.PlannedBy order p) : p.Linked :=
  ⟨fun hn _ hs => h.forward hn hs, fun hn => h.counted hn⟩

/-! ### References -/

lemma incoming?_eq_some {node input : String} {c : Connection}
    (hc : g.incoming? node input = some c) :
    c ∈ g.connections ∧ c.toNode = node ∧ c.toInput = input := by
  refine ⟨List.mem_of_find?_eq_some hc, ?_⟩
  simpa using List.find?_some hc

/-- What a planned node refers to comes over a connection. -/
lemma exists_connection {deps : Dependencies} {v : ℕ} {node : Node} {id output : String}
    (href : (id, output) ∈ (g.planned deps order v node).references) :
    ∃ c ∈ g.connections, c.fromNode = id ∧ c.toNode = node.id := by
  rcases PlannedNode.mem_references.1 href with ⟨input, harg⟩ | hbehavior
  · obtain ⟨i, -, hi⟩ := List.mem_map.1 harg
    have hbinding : g.bindingOf node i = .connected id output := (Prod.ext_iff.1 hi).2
    unfold bindingOf at hbinding
    split at hbinding
    · rename_i c hc
      obtain ⟨hmem, hto, -⟩ := incoming?_eq_some hc
      exact ⟨c, hmem, by simpa using (Binding.connected.inj hbinding).1, hto⟩
    · split at hbinding <;> simp at hbinding
  · have hsource : g.behaviorOf node = .upstream id output := hbehavior
    unfold behaviorOf at hsource
    split at hsource
    · simp at hsource
    · simp at hsource
    · rename_i c _ _ hc
      obtain ⟨hmem, hto, -⟩ := incoming?_eq_some hc
      exact ⟨c, hmem, (BehaviorSource.upstream.inj hsource).1, hto⟩
    · simp at hsource

/-- A reference goes to an earlier node that has the referring one among its successors. -/
lemma exists_producer (h : g.PlannedBy order p) {i : ℕ} {n : PlannedNode}
    (hn : p.nodes[i]? = some n) {id output : String} (href : (id, output) ∈ n.references) :
    ∃ j m, p.nodes[j]? = some m ∧ m.id = id ∧ j < i ∧ i ∈ m.successors := by
  obtain ⟨v, node, hv, hnode, rfl⟩ := h.getElem?_nodes_eq_some_iff.1 hn
  obtain ⟨c, hc, rfl, hto⟩ := exists_connection href
  obtain ⟨u, w, hu, hw⟩ := exists_positions hc
  -- the connection ends at the node itself, so its link ends at `i`
  have hwv : w = v := by
    rw [hto, Graph.position?_eq_some_iff.2 ⟨node, hnode, rfl⟩] at hw
    exact (Option.some.inj hw).symm
  subst hwv
  obtain ⟨m, hm, hid⟩ := (Plan.position?_eq_some_iff h.ids_nodup).1 (h.position?_eq hu)
  have hlink : (order.idxOf u, i) ∈ p.links := by
    rw [h.links_perm_edges.mem_iff, List.mem_map]
    exact ⟨(u, w), mem_edges_iff.2 ⟨c, hc, hu, hw⟩, by rw [h.idxOf_eq hv]⟩
  obtain ⟨m', hm', hs⟩ := Plan.mem_links.1 hlink
  obtain rfl : m' = m := Option.some.inj (hm'.symm.trans hm)
  exact ⟨order.idxOf u, m', hm, hid, (h.forward hm hs).1, hs⟩

lemma backed (h : g.PlannedBy order p) : p.Backed := by
  rintro i n hn ⟨id, output⟩ href
  obtain ⟨j, m, hm, hid, -, hs⟩ := h.exists_producer hn href
  exact ⟨j, m, (Plan.lastPosition?_eq_some_iff h.ids_nodup).2 ⟨m, hm, hid⟩, hm, hs⟩

end PlannedBy

/-- **A plan is a renumbered copy of its graph**: it has the ids of the graph, and its links
are the connections.  The links lead forward, the counts agree with them, and every output that
a node refers to belongs to an earlier node which has the referring node as a successor. -/
theorem plan_links (g : Graph) (p : Plan) (h : g.plan = .ok p) :
    (p.order.Perm (g.nodes.map Node.id) ∧ p.order.Nodup) ∧
      (p.links.map fun l => (some l.1, some l.2)).Perm
        (g.connections.map fun c => (p.position? c.fromNode, p.position? c.toNode)) ∧
      (∀ (i : ℕ) (n : PlannedNode), p.nodes[i]? = some n →
        ∀ s ∈ n.successors, i < s ∧ s < p.size) ∧
      (∀ (i : ℕ) (n : PlannedNode), p.nodes[i]? = some n → n.dependencyCount = p.edgesInto i) ∧
      p.linkFault? = none ∧
      ∀ (i : ℕ) (n : PlannedNode), p.nodes[i]? = some n → ∀ id output : String,
        (∃ input, (input, .connected id output) ∈ n.arguments) ∨ n.behavior = .upstream id output →
          ∃ (j : ℕ) (m : PlannedNode),
            p.nodes[j]? = some m ∧ m.id = id ∧ j < i ∧ i ∈ m.successors := by
  obtain ⟨order, hby⟩ := exists_plannedBy h
  refine ⟨⟨hby.ids_perm, hby.ids_nodup⟩, hby.links_perm, fun i n hn s hs => hby.forward hn hs,
    fun i n hn => hby.counted hn, Plan.linkFault?_eq_none_iff.2 hby.linked, ?_⟩
  intro i n hn id output href
  exact hby.exists_producer hn (PlannedNode.mem_references.2 href)

/-- The plan of `joining`. -/
def joiningPlan : Plan where
  nodes := [
    ⟨"one", 1, "one", ["out"], [], .static "one", [2, 2], 0⟩,
    ⟨"code", 2, "code", ["text"], [], .static "code", [2], 0⟩,
    ⟨"sum", 0, "add", ["out"],
      [("a", .connected "one" "out"), ("b", .connected "one" "out")],
      .upstream "code" "text", [3], 3⟩,
    ⟨"log", 3, "log", [], [], .static "log", [], 1⟩]

theorem plan_links_joining :
    joining.plan = .ok joiningPlan ∧ joiningPlan.links = [(0, 2), (0, 2), (1, 2), (2, 3)] ∧
      joiningPlan.linkFault? = none ∧
      ∃ (j : ℕ) (m : PlannedNode),
        joiningPlan.nodes[j]? = some m ∧ m.id = "code" ∧ j < 2 ∧ 2 ∈ m.successors := by
  have hplan : joining.plan = .ok joiningPlan := rfl
  obtain ⟨-, -, -, -, hfault, hrefs⟩ := plan_links joining joiningPlan hplan
  exact ⟨hplan, rfl, hfault, hrefs 2 _ rfl "code" "text" (.inr rfl)⟩

end Graph

end Dataflow

import Dataflow.Proofs.Run.Partial
import Dataflow.Proofs.Run.Sequential
import Dataflow.Proofs.Schedule.HeldBack

/-!
# Graphs that are written down in another order

The declaration order breaks ties, so that a graph and its rearrangement may run in different
orders.  Each node does the same in both plans (`PlannedNode.Alike`), and it reads the same: by
induction along one of the plans, the nodes in front of it have the same outputs in both.  So the
reports agree, but for the order of the failures (`Graph.rearrangement`).
-/

namespace Dataflow

/-! ## Nodes that do the same -/

/-- Two planned nodes that are at most in different places. -/
structure PlannedNode.Alike (n n' : PlannedNode) : Prop where
  id_eq : n.id = n'.id
  name_eq : n.name = n'.name
  outputs_eq : n.outputs = n'.outputs
  arguments_eq : n.arguments = n'.arguments
  behavior_eq : n.behavior = n'.behavior

namespace PlannedNode.Alike

variable {n n' : PlannedNode} {env : Environment} {available : Available}

lemma settle_call_eq (h : n.Alike n') :
    (n.settle env available).call = (n'.settle env available).call := by
  have hgathered : n.gathered available = n'.gathered available := by
    rw [gathered, gathered, missingInput?, missingInput?, h.arguments_eq]
  have hfunction : n.function env available = n'.function env available := by
    rw [function, function, h.behavior_eq, h.name_eq]
  rw [settle, settle, hgathered, hfunction]

lemma outcome_eq (h : n.Alike n') (policy : OutputPolicy) :
    (n.settle env available).outcome policy = (n'.settle env available).outcome policy := by
  rw [Settled.outcome, Settled.outcome, h.settle_call_eq, settle_node, settle_node, h.outputs_eq]

lemma settle_outputs_eq (h : n.Alike n') (policy : OutputPolicy) :
    (n.settle env available).outputs policy = (n'.settle env available).outputs policy := by
  rw [Settled.outputs, Settled.outputs, h.outcome_eq, settle_node, settle_node, nulls, nulls,
    h.outputs_eq]

lemma settle_failure?_eq (h : n.Alike n') (policy : OutputPolicy) :
    (n.settle env available).failure? policy = (n'.settle env available).failure? policy := by
  rw [Settled.failure?, Settled.failure?, h.outcome_eq]
  cases (n'.settle env available).outcome policy with
  | ok _ => rfl
  | error fault => simp only [settle_node, PlannedNode.fault, h.id_eq, h.name_eq]

end PlannedNode.Alike

/-! ## Plans of rearranged graphs -/

namespace Graph

lemma PlannedBy.failures_nodup {g : Graph} {order : List ℕ} {p : Plan} (hby : g.PlannedBy order p)
    (env : Environment) : (p.settledReport env).failures.Nodup := by
  rw [← Plan.partialReport_of_all hby.linked hby.backed fun _ _ => rfl]
  exact ((Plan.failures_partialReport_sublist env p _).nodup hby.ids_nodup).of_map _

namespace Rearranged

variable {g g' : Graph} {order order' : List ℕ} {p p' : Plan} {env : Environment} {i j : ℕ}
  {n n' : PlannedNode}

lemma planned_alike (h : g.Rearranged g') (deps deps' : Dependencies) (order order' : List ℕ)
    (v v' : ℕ) (node : Node) :
    (g.planned deps order v node).Alike (g'.planned deps' order' v' node) where
  id_eq := rfl
  name_eq := rfl
  outputs_eq := rfl
  arguments_eq := by
    refine List.map_congr_left fun input _ => ?_
    rw [bindingOf, bindingOf, h.incoming?_eq]
  behavior_eq := by
    change g.behaviorOf node = g'.behaviorOf node
    rw [behaviorOf, behaviorOf, h.incoming?_eq]

/-- A node of the one plan is alike to one of the other. -/
lemma exists_alike (h : g.Rearranged g') (hby : g.PlannedBy order p) (hby' : g'.PlannedBy order' p')
    (hn : p.nodes[i]? = some n) : ∃ (j : ℕ) (n' : PlannedNode), p'.nodes[j]? = some n' ∧ n.Alike n' := by
  obtain ⟨v, node, -, hnode, rfl⟩ := hby.getElem?_nodes_eq_some_iff.1 hn
  obtain ⟨v', hnode'⟩ : ∃ v', g'.nodes[v']? = some node :=
    List.mem_iff_getElem?.1 (h.nodes_perm.mem_iff.1 (List.mem_of_getElem? hnode))
  have hv' : v' < g'.size := (List.getElem?_eq_some_iff.1 hnode').1
  exact ⟨_, _, hby'.getElem?_nodes_eq_some_iff.2 ⟨v', node, hby'.getElem?_idxOf hv', hnode', rfl⟩,
    h.planned_alike _ _ _ _ _ _ node⟩

/-- A node reads the same in both plans. -/
lemma settle_eq (h : g.Rearranged g') (hby : g.PlannedBy order p)
    (hby' : g'.PlannedBy order' p') (hn : p.nodes[i]? = some n) :
    n.settle env (p.finalValues env) = n.settle env (p'.finalValues env) := by
  -- by induction on the place: what the node reads comes from nodes before it
  induction i using Nat.strongRecOn generalizing n with
  | ind i ih =>
    refine PlannedNode.settle_congr fun r hr => ?_
    obtain ⟨id, output⟩ := r
    obtain ⟨k, m, hm, rfl, hki, -⟩ := hby.exists_producer hn hr
    obtain ⟨k', m', hm', halike⟩ := h.exists_alike hby hby' hm
    rw [Plan.finalValues_eq_find? hby.ids_nodup hby.linked hby.backed hm, ih k hki hm,
      halike.settle_outputs_eq]
    change _ = p'.finalValues env m.id output
    rw [halike.id_eq, Plan.finalValues_eq_find? hby'.ids_nodup hby'.linked hby'.backed hm']

/-! ## Reports -/

/-- The outputs of a node in the report of the one plan are in that of the other. -/
lemma find?_outputs (h : g.Rearranged g') (hby : g.PlannedBy order p)
    (hby' : g'.PlannedBy order' p') {id : String} {outputs : Outputs}
    (hfind : (p.settledReport env).outputs.find? id = some outputs) :
    (p'.settledReport env).outputs.find? id = some outputs := by
  have hid : id ∈ p.order :=
    Plan.keys_collected_subset p _ (Entries.mem_keys_iff.2 ⟨outputs, hfind⟩)
  obtain ⟨i, n, hn, rfl⟩ := Plan.exists_place hid
  obtain ⟨j, n', hn', halike⟩ := h.exists_alike hby hby' hn
  have hslot' := Plan.finalSlots_eq env hby'.linked hby'.backed hn'
  rw [← halike.settle_outputs_eq, ← h.settle_eq hby hby' hn] at hslot'
  rw [Plan.settledReport, Plan.find?_collected_eq hby.ids_nodup hn,
    Plan.finalSlots_eq env hby.linked hby.backed hn] at hfind
  rw [hfind] at hslot'
  rw [halike.id_eq]
  exact Plan.find?_collected hby'.ids_nodup hn' hslot'

/-- The failure of a node in the report of the one plan is in that of the other. -/
lemma mem_failures (h : g.Rearranged g') (hby : g.PlannedBy order p)
    (hby' : g'.PlannedBy order' p') {e : NodeError}
    (he : e ∈ (p.settledReport env).failures) : e ∈ (p'.settledReport env).failures := by
  rw [← Plan.partialReport_of_all hby.linked hby.backed fun _ _ => rfl] at he
  rw [← Plan.partialReport_of_all hby'.linked hby'.backed fun _ _ => rfl]
  obtain ⟨i, n, hn, -, hfailure⟩ := Plan.mem_failures_partialReport.1 he
  obtain ⟨j, n', hn', halike⟩ := h.exists_alike hby hby' hn
  rw [h.settle_eq hby hby' hn, halike.settle_failure?_eq] at hfailure
  exact Plan.mem_failures_partialReport.2 ⟨j, n', hn', rfl, hfailure⟩

lemma outputs_eq (h : g.Rearranged g') (hby : g.PlannedBy order p)
    (hby' : g'.PlannedBy order' p') :
    (p.settledReport env).outputs = (p'.settledReport env).outputs := by
  refine Entries.eq_of_find?_eq fun id => Option.ext fun outputs => ?_
  exact ⟨h.find?_outputs hby hby', h.symm.find?_outputs hby' hby⟩

lemma failures_perm (h : g.Rearranged g') (hby : g.PlannedBy order p)
    (hby' : g'.PlannedBy order' p') :
    (p.settledReport env).failures.Perm (p'.settledReport env).failures := by
  rw [List.perm_ext_iff_of_nodup (hby.failures_nodup env) (hby'.failures_nodup env)]
  exact fun e => ⟨h.mem_failures hby hby', h.symm.mem_failures hby' hby⟩

end Rearranged

end Graph

/-- **Results do not depend on how a graph is written down.**  Parts that are accepted are
accepted in any order.  Either there is no plan in either order, and the same nodes are named, or
there is one in both, and of two sequential runs that are not cancelled the reports have the same
outputs, and the same failures in some order. -/
theorem Graph.rearrangement (nodes nodes' : List Node) (connections connections' : List Connection)
    (g : Graph) (hg : Graph.ofParts nodes connections = .ok g) (hnodes : nodes.Perm nodes')
    (hconnections : connections.Perm connections') :
    ∃ g', Graph.ofParts nodes' connections' = .ok g' ∧
      ((∃ c c', g.plan = .error c ∧ g'.plan = .error c' ∧ c.nodes.Perm c'.nodes) ∨
        ∃ p p', g.plan = .ok p ∧ g'.plan = .ok p' ∧
          ∀ (env : Environment) (token token' : Option CancelToken) (stopped stopped' : Bool),
            (p.runSequential env token stopped).result.cancelled = false →
            (p'.runSequential env token' stopped').result.cancelled = false →
              (p.runSequential env token stopped).result.outputs =
                  (p'.runSequential env token' stopped').result.outputs ∧
                (p.runSequential env token stopped).result.failures.Perm
                  (p'.runSequential env token' stopped').result.failures) := by
  obtain ⟨rfl, rfl⟩ := ofParts_eq_ok_iff.1 hg
  obtain ⟨g', hg'⟩ := exists_ofParts_iff.2 (g.valid.perm hnodes hconnections)
  obtain ⟨rfl, rfl⟩ := ofParts_eq_ok_iff.1 hg'
  have h : g.Rearranged g' := ⟨hnodes, hconnections⟩
  refine ⟨g', hg', ?_⟩
  by_cases hacyclic : g.Acyclic
  · obtain ⟨order, horder⟩ := exists_order hacyclic
    obtain ⟨order', horder'⟩ := exists_order (h.acyclic_iff.1 hacyclic)
    obtain ⟨p, hplan⟩ : ∃ p, g.plan = .ok p := ⟨_, plan_eq_ok_iff.2 ⟨order, horder, rfl⟩⟩
    obtain ⟨p', hplan'⟩ : ∃ p', g'.plan = .ok p' := ⟨_, plan_eq_ok_iff.2 ⟨order', horder', rfl⟩⟩
    obtain ⟨_, hby⟩ := exists_plannedBy hplan
    obtain ⟨_, hby'⟩ := exists_plannedBy hplan'
    refine .inr ⟨p, p', hplan, hplan', fun env token token' stopped stopped' hran hran' => ?_⟩
    rw [(Plan.runSequential_eq hran).1, (Plan.runSequential_eq hran').1]
    exact ⟨h.outputs_eq hby hby', h.failures_perm hby hby'⟩
  · obtain ⟨c, hc⟩ := exists_cycle hacyclic
    obtain ⟨c', hc'⟩ := exists_cycle (mt h.acyclic_iff.2 hacyclic)
    exact .inl ⟨c, c', plan_eq_error_iff.2 hc, plan_eq_error_iff.2 hc', h.cycle_perm hc hc'⟩

/-- `joining` with its parts in the opposite order; its second node runs before the third here,
and after it there. -/
def Graph.joiningReversed : Graph where
  nodes := joining.nodes.reverse
  connections := joining.connections.reverse
  valid := joining.valid.perm (List.reverse_perm _).symm (List.reverse_perm _).symm

theorem Graph.rearrangement_joining :
    ∃ p', joiningReversed.plan = .ok p' ∧ joiningPlan.order = ["one", "code", "sum", "log"] ∧
      p'.order = ["code", "one", "sum", "log"] ∧
      (joiningPlan.runSequential joiningEnvironment none false).result.outputs =
        (p'.runSequential joiningEnvironment none false).result.outputs ∧
      (joiningPlan.runSequential joiningEnvironment none false).result.failures.Perm
        (p'.runSequential joiningEnvironment none false).result.failures := by
  have hplan : joining.plan = .ok joiningPlan := rfl
  have hparts : ofParts joining.nodes joining.connections = .ok joining :=
    ofParts_eq_ok_iff.2 ⟨rfl, rfl⟩
  obtain ⟨g', hg', hcases⟩ := rearrangement joining.nodes joining.nodes.reverse
    joining.connections joining.connections.reverse joining hparts
    (List.reverse_perm _).symm (List.reverse_perm _).symm
  obtain rfl : joiningReversed = g' :=
    Except.ok.inj ((ofParts_eq_ok_iff.2 ⟨rfl, rfl⟩).symm.trans hg')
  rcases hcases with ⟨c, -, hc, -, -⟩ | ⟨p, p', hp, hp', hruns⟩
  · rw [hplan] at hc
    simp at hc
  · obtain rfl : joiningPlan = p := Except.ok.inj (hplan.symm.trans hp)
    have horder : joiningReversed.plan.map Plan.order = .ok ["code", "one", "sum", "log"] := rfl
    rw [hp'] at horder
    have hran' : (p'.runSequential joiningEnvironment none false).result.cancelled = false :=
      Plan.runSequential_not_cancelled fun d _ => d.stops_none
    exact ⟨p', hp', rfl, Except.ok.inj horder,
      hruns joiningEnvironment none none false false rfl hran'⟩

end Dataflow

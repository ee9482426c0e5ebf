import Dataflow.Proofs.Graph.Acceptance
import Dataflow.Proofs.Schedule.Order

/-!
# Nodes that are held back

A graph without an order is answered with the nodes that never became ready.  These are the nodes
on a cycle and those behind one (`Graph.mem_cycle_iff`): a node that was taken has all nodes in
front of it taken earlier, so that none of them lies on a cycle, and a node that is left waits for
another one that is left.
-/

namespace Dataflow

namespace Graph

open ReadyQueue

variable {g g' : Graph} {c : Cycle} {v : ℕ} {a b id : String}

/-- A node is held back if it lies on a cycle or behind one. -/
def HeldBack (g : Graph) (id : String) : Prop :=
  ∃ a, Relation.TransGen g.Leads a a ∧ Relation.ReflTransGen g.Leads a id

/-! ## Nodes that are taken -/

/-- The nodes in front of one that is taken are taken earlier. -/
lemma taken_of_leads (hab : Relation.TransGen g.Leads a b) (hb : g.position? b = some v)
    (hv : v ∈ g.scheduled.1) :
    ∃ u ∈ g.scheduled.1, g.position? a = some u ∧
      g.scheduled.1.idxOf u < g.scheduled.1.idxOf v := by
  have hstep : ∀ {a b v}, g.Leads a b → g.position? b = some v → v ∈ g.scheduled.1 →
      ∃ u ∈ g.scheduled.1, g.position? a = some u ∧
        g.scheduled.1.idxOf u < g.scheduled.1.idxOf v := by
    rintro a b v ⟨c, hc, rfl, rfl⟩ hv hmem
    obtain ⟨u, w, hu, hw⟩ := exists_positions hc
    obtain rfl : w = v := Option.some.inj (hw.symm.trans hv)
    have hedge : (u, w) ∈ g.scheduled.2.deps.edges := by
      rw [scheduled_deps]
      exact mem_edges_iff.2 ⟨c, hc, hu, hw⟩
    obtain ⟨hu', hlt⟩ := (drained_scheduled g).1.ordered (u, w) hedge hmem
    exact ⟨u, hu', hu, hlt⟩
  induction hab using Relation.TransGen.head_induction_on with
  | single hlead => exact hstep hlead hb hv
  | head hlead _ ih =>
    obtain ⟨u, hu, hpos, hlt⟩ := ih
    obtain ⟨w, hw, hpos', hlt'⟩ := hstep hlead hpos hu
    exact ⟨w, hw, hpos', hlt'.trans hlt⟩

lemma HeldBack.not_taken (h : g.HeldBack id) (hid : g.position? id = some v) :
    v ∉ g.scheduled.1 := by
  obtain ⟨a, hcycle, hreach⟩ := h
  intro hv
  -- the member of the cycle is taken as well, and would be taken earlier than itself
  obtain ⟨u, hu, hpos⟩ : ∃ u ∈ g.scheduled.1, g.position? a = some u := by
    rcases Relation.reflTransGen_iff_eq_or_transGen.1 hreach with rfl | hahead
    · exact ⟨v, hv, hid⟩
    · obtain ⟨u, hu, hpos, -⟩ := taken_of_leads hahead hid hv
      exact ⟨u, hu, hpos⟩
  obtain ⟨w, -, hpos', hlt⟩ := taken_of_leads hcycle hpos hu
  obtain rfl : w = u := Option.some.inj (hpos'.symm.trans hpos)
  exact lt_irrefl _ hlt

/-! ## Nodes that are left -/

lemma Stuck.length_lt (h : g.Stuck v) : g.scheduled.1.length < g.size := by
  by_contra hlong
  -- with as many nodes taken as there are, the node would be among them
  have hsub := (scheduled_nodup g).subperm (scheduled_subset g)
  have hperm : g.scheduled.1.Perm (List.range g.size) :=
    hsub.perm_of_length_le (by rw [List.length_range]; omega)
  exact h.2 (hperm.mem_iff.2 (List.mem_range.2 h.1))

/-- The nodes that are left are those that are held back. -/
lemma stuck_iff_heldBack (hid : g.position? id = some v) : g.Stuck v ↔ g.HeldBack id := by
  refine ⟨fun h => ?_, fun h => ⟨lt_size_of_position? hid, h.not_taken hid⟩⟩
  obtain ⟨w, hw, hcycle, hreach⟩ := exists_cycle_of_forall_exists_pred
    (R := fun a b => (a, b) ∈ g.dependencies.edges) (finite_stuck g)
    (fun u hu => exists_stuck_producer h.length_lt hu) h
  obtain ⟨a, ha⟩ := Stuck.exists_id hw
  refine ⟨a, transGen_leads hcycle ha ha, ?_⟩
  rcases Relation.reflTransGen_iff_eq_or_transGen.1 hreach with rfl | hahead
  · rw [position?_inj ha hid]
  · exact (transGen_leads hahead ha hid).to_reflTransGen

/-! ## The nodes that are named -/

lemma topologicalOrder_eq_error_iff :
    g.topologicalOrder = .error c ↔
      g.scheduled.1.length < g.size ∧ c = ⟨g.idsAt g.scheduled.2.unprocessed⟩ := by
  unfold topologicalOrder
  simp only
  split
  · rename_i hlt
    simp [hlt, eq_comm]
  · rename_i hlt
    simp [hlt]

/-- A graph has no order only if it has a cycle. -/
lemma exists_cycle (h : ¬ g.Acyclic) : ∃ c, g.topologicalOrder = .error c := by
  cases horder : g.topologicalOrder with
  | error c => exact ⟨c, rfl⟩
  | ok order => exact absurd (acyclic_of_order horder) h

lemma mem_unprocessed_iff : v ∈ g.scheduled.2.unprocessed ↔ g.Stuck v := by
  rw [unprocessed, List.mem_filter, List.mem_range, scheduled_deps, decide_eq_true_eq, Ne,
    (drained_scheduled g).1.processed_iff]
  rfl

/-- The nodes that are named when there is no order are those that are held back. -/
lemma mem_cycle_iff (h : g.topologicalOrder = .error c) : id ∈ c.nodes ↔ g.HeldBack id := by
  obtain ⟨hshort, rfl⟩ := topologicalOrder_eq_error_iff.1 h
  rw [mem_idsAt_iff]
  constructor
  · rintro ⟨v, hv, hid⟩
    exact (stuck_iff_heldBack hid).1 (mem_unprocessed_iff.1 hv)
  · intro hheld
    -- a node that is held back is the target of a connection, so it is declared
    obtain ⟨b, hb⟩ : ∃ b, g.Leads b id := by
      obtain ⟨a, hcycle, hreach⟩ := hheld
      obtain ⟨b, -, hb⟩ := Relation.TransGen.tail'_iff.1 (hcycle.trans_left hreach)
      exact ⟨b, hb⟩
    obtain ⟨d, hd, -, hto⟩ := hb
    obtain ⟨-, v, -, hv⟩ := exists_positions hd
    rw [hto] at hv
    exact ⟨v, mem_unprocessed_iff.2 ((stuck_iff_heldBack hv).2 hheld), hv⟩

/-- They are named in declaration order, each of them once. -/
lemma cycle_sublist (h : g.topologicalOrder = .error c) : c.nodes.Sublist (g.nodes.map Node.id) := by
  obtain ⟨-, rfl⟩ := topologicalOrder_eq_error_iff.1 h
  rw [← idsAt_range]
  refine List.Sublist.filterMap _ ?_
  rw [unprocessed, scheduled_deps]
  exact List.filter_sublist

lemma cycle_nodup (h : g.topologicalOrder = .error c) : c.nodes.Nodup :=
  (cycle_sublist h).nodup g.valid.ids_nodup

/-- A graph and its rearrangement name the same nodes. -/
lemma Rearranged.cycle_perm (h : g.Rearranged g') {c' : Cycle} (hc : g.topologicalOrder = .error c)
    (hc' : g'.topologicalOrder = .error c') : c.nodes.Perm c'.nodes := by
  rw [List.perm_ext_iff_of_nodup (cycle_nodup hc) (cycle_nodup hc')]
  intro id
  rw [mem_cycle_iff hc, mem_cycle_iff hc', HeldBack, HeldBack, h.leads_eq]

end Graph

end Dataflow

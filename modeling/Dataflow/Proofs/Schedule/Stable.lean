import Mathlib.Data.Prod.Lex
import Dataflow.Proofs.Schedule.Order

/-!
# Ties in the order of a graph

Nodes that are ready at the same time are taken in declaration order, and those that are ready
earlier are taken earlier.  A node is ready once its last producer is done, so an order is sorted
by the place of the last producer first and by declaration second (`Dependencies.Before`).  The
places are those of the order itself.  Still, the permutation of the nodes that is sorted in this
way is unique (`Dependencies.eq_of_pairwise_before`), and as only the set of the producers of each
node enters, it does not matter how often two nodes are connected and in which order the
connections are listed.
-/

namespace Dataflow

namespace Dependencies

variable {d d' : Dependencies} {order order' : List ℕ} {n u v : ℕ}

/-- The origins of the edges into a node. -/
def producers (d : Dependencies) (node : ℕ) : List ℕ :=
  d.edges.filterMap fun e => if e.2 = node then some e.1 else none

/-- The largest place that a producer of a node has in an order, and -1 for a node without
producers. -/
def lastProducer (d : Dependencies) (order : List ℕ) (node : ℕ) : ℤ :=
  (d.producers node).foldr (fun u place => max (order.idxOf u : ℤ) place) (-1)

/-- A node comes before another one if its last producer does; with the same last producer, or
without any, if it is declared first. -/
def Before (d : Dependencies) (order : List ℕ) (u v : ℕ) : Prop :=
  toLex (d.lastProducer order u, u) < toLex (d.lastProducer order v, v)

/-! ## The place of the last producer -/

lemma mem_producers : u ∈ d.producers v ↔ (u, v) ∈ d.edges := by
  rw [producers, List.mem_filterMap]
  constructor
  · rintro ⟨⟨a, b⟩, he, h⟩
    split_ifs at h with hb
    obtain rfl : a = u := Option.some.inj h
    obtain rfl : b = v := hb
    exact he
  · intro he
    exact ⟨(u, v), he, if_pos rfl⟩

lemma lastProducer_le_iff {k : ℤ} :
    d.lastProducer order v ≤ k ↔ -1 ≤ k ∧ ∀ u, (u, v) ∈ d.edges → (order.idxOf u : ℤ) ≤ k := by
  have hfold : ∀ l : List ℕ, l.foldr (fun u place => max (order.idxOf u : ℤ) place) (-1) ≤ k ↔
      -1 ≤ k ∧ ∀ u ∈ l, (order.idxOf u : ℤ) ≤ k := by
    intro l
    induction l with
    | nil => simp
    | cons w l ih =>
      rw [List.foldr_cons, max_le_iff, ih, List.forall_mem_cons, and_left_comm]
  simp only [lastProducer, hfold, mem_producers]

/-- The place of the last producer depends on the places of the producers and on nothing else. -/
lemma lastProducer_congr (hedges : ∀ u, (u, v) ∈ d.edges ↔ (u, v) ∈ d'.edges)
    (hplaces : ∀ u, (u, v) ∈ d.edges → order.idxOf u = order'.idxOf u) :
    d.lastProducer order v = d'.lastProducer order' v := by
  refine eq_of_forall_ge_iff fun k => ?_
  rw [lastProducer_le_iff, lastProducer_le_iff]
  refine and_congr_right fun _ => forall_congr' fun u => ?_
  rw [← hedges u]
  refine imp_congr_right fun he => ?_
  rw [hplaces u he]

/-- The last producer has a place in an order when all of them have. -/
lemma lastProducer_lt_length_iff :
    d.lastProducer order v < order.length ↔ ∀ u, (u, v) ∈ d.edges → u ∈ order := by
  rw [← Int.le_sub_one_iff, lastProducer_le_iff]
  have hplace : ∀ u, (order.idxOf u : ℤ) ≤ order.length - 1 ↔ u ∈ order := by
    intro u
    rw [Int.le_sub_one_iff, Int.ofNat_lt, List.idxOf_lt_length_iff]
  simp only [hplace]
  exact and_iff_right (by omega)

/-- Where all producers have a place, nodes behind them do not count. -/
lemma lastProducer_append (h : ∀ u, (u, v) ∈ d.edges → u ∈ order) (l : List ℕ) :
    d.lastProducer (order ++ l) v = d.lastProducer order v :=
  lastProducer_congr (fun _ => Iff.rfl) fun u he => List.idxOf_append_of_mem (h u he)

/-- A producer at the end is the last one. -/
lemma lastProducer_concat (hn : n ∉ order) (he : (n, v) ∈ d.edges)
    (h : ∀ u, (u, v) ∈ d.edges → u ∈ order ++ [n]) :
    d.lastProducer (order ++ [n]) v = order.length := by
  have hplace : (order ++ [n]).idxOf n = order.length := by
    rw [List.idxOf_append_of_notMem hn, List.idxOf_cons_self, Nat.add_zero]
  refine le_antisymm ?_ ?_
  · have hlt := lastProducer_lt_length_iff.2 h
    rw [List.length_append, List.length_singleton] at hlt
    omega
  · have hle := (lastProducer_le_iff.1 (le_refl (d.lastProducer (order ++ [n]) v))).2 n he
    rwa [hplace] at hle

lemma before_iff : d.Before order u v ↔ d.lastProducer order u < d.lastProducer order v ∨
    d.lastProducer order u = d.lastProducer order v ∧ u < v :=
  Prod.Lex.toLex_lt_toLex

lemma Before.congr (hu : d.lastProducer order u = d'.lastProducer order' u)
    (hv : d.lastProducer order v = d'.lastProducer order' v) (h : d.Before order u v) :
    d'.Before order' u v := by
  rwa [Before, hu, hv] at h

/-! ## At most one permutation is sorted -/

lemma nodup_of_pairwise_before (h : order.Pairwise (d.Before order)) : order.Nodup := by
  refine h.imp ?_
  rintro u v huv rfl
  exact lt_irrefl _ huv

/-- If the producers of a node are all in a prefix, so are those of the nodes before it. -/
lemma Before.producers_mem {front rest : List ℕ} (h : d.Before (front ++ rest) u v)
    (hv : ∀ w, (w, v) ∈ d.edges → w ∈ front) : ∀ w, (w, u) ∈ d.edges → w ∈ front := by
  intro w he
  have hle : d.lastProducer (front ++ rest) u ≤ d.lastProducer (front ++ rest) v := by
    rcases before_iff.1 h with hlt | ⟨heq, -⟩
    · exact hlt.le
    · exact heq.le
  have hlast := lastProducer_lt_length_iff.2 hv
  rw [lastProducer_append hv] at hle
  have hplace := (lastProducer_le_iff.1 hle).2 w he
  by_contra hw
  rw [List.idxOf_append_of_notMem hw] at hplace
  omega

/-- Two sorted permutations are the same if one of them has the producers of each node in front
of it. -/
lemma eq_of_pairwise_before (hperm : order'.Perm order)
    (hforward : ∀ e ∈ d.edges, order.idxOf e.1 < order.idxOf e.2)
    (hsorted : order.Pairwise (d.Before order)) (hsorted' : order'.Pairwise (d.Before order')) :
    order' = order := by
  -- behind a common prefix, what is left of the two is the same
  have hrest : ∀ rest rest' front, order = front ++ rest → order' = front ++ rest' →
      rest' = rest := by
    intro rest
    induction rest with
    | nil =>
      intro rest' front ho ho'
      rw [ho, ho', List.perm_append_left_iff] at hperm
      exact hperm.eq_nil
    | cons v rest ih =>
      intro rest' front ho ho'
      have htail : rest'.Perm (v :: rest) := by
        rwa [ho, ho', List.perm_append_left_iff] at hperm
      cases rest' with
      | nil => exact absurd htail.symm.eq_nil (List.cons_ne_nil v rest)
      | cons u rest' =>
        by_cases huv : u = v
        · subst huv
          rw [ih rest' (front ++ [u]) (by simpa using ho) (by simpa using ho')]
        · -- otherwise each of the two nodes would come before the other one
          exfalso
          have hu : u ∈ rest :=
            (List.mem_cons.1 (htail.mem_iff.1 List.mem_cons_self)).resolve_left huv
          have hv : v ∈ rest' :=
            (List.mem_cons.1 (htail.mem_iff.2 List.mem_cons_self)).resolve_left (Ne.symm huv)
          have hbefore : d.Before (front ++ v :: rest) v u := by
            rw [ho, List.pairwise_append, List.pairwise_cons] at hsorted
            exact hsorted.2.1.1 u hu
          have hbefore' : d.Before (front ++ u :: rest') u v := by
            rw [ho', List.pairwise_append, List.pairwise_cons] at hsorted'
            exact hsorted'.2.1.1 v hv
          have hfrontv : ∀ w, (w, v) ∈ d.edges → w ∈ front := by
            intro w he
            have hvfront : v ∉ front := by
              have hnodup := nodup_of_pairwise_before hsorted
              rw [ho, List.nodup_middle, List.nodup_cons] at hnodup
              exact fun hmem => hnodup.1 (List.mem_append_left rest hmem)
            have hlt := hforward (w, v) he
            by_contra hw
            rw [ho, List.idxOf_append_of_notMem hw, List.idxOf_append_of_notMem hvfront,
              List.idxOf_cons_self] at hlt
            omega
          have hfrontu := hbefore'.producers_mem hfrontv
          have hback : d.Before (front ++ u :: rest') v u :=
            hbefore.congr
              (by rw [lastProducer_append hfrontv, lastProducer_append hfrontv])
              (by rw [lastProducer_append hfrontu, lastProducer_append hfrontu])
          exact lt_asymm hbefore' hback
  exact hrest order order' [] rfl rfl

end Dependencies

/-! ## The queue is sorted -/

namespace ReadyQueue

open Dependencies

variable {q q' : ReadyQueue} {order : List ℕ} {u v : ℕ}

/-- All producers of a node that was queued are taken. -/
lemma Drained.producers_mem (h : q.Drained order) (hv : v ∈ order ++ q.queue) :
    ∀ u, (u, v) ∈ q.deps.edges → u ∈ order := by
  intro u he
  exact (h.processed_iff u).1 (h.sound.processed_of_edge he (h.sound.seen_visited v hv))

/-- What a completion releases has the completed node among its producers. -/
lemma Sound.edge_of_released (h : q.Sound order) (hv : v ∈ q.released u) :
    (u, v) ∈ q.deps.edges := by
  obtain ⟨hlt, hle, -, hunvisited⟩ := (mem_released h).1 hv
  have hpos := (h.unvisited_iff v hlt).1 hunvisited
  have hmem : v ∈ q.deps.successors u := List.count_pos_iff.1 (by omega)
  obtain ⟨⟨a, b⟩, he, hab⟩ := List.mem_filterMap.1 hmem
  split_ifs at hab with ha
  obtain rfl : b = v := Option.some.inj hab
  obtain rfl : a = u := ha
  exact he

lemma pairwise_start (d : Dependencies) : (start d).queue.Pairwise (d.Before []) := by
  have hnone : ∀ v ∈ (start d).queue, d.lastProducer [] v = -1 := by
    intro v hv
    have hzero := (mem_queue_start.1 hv).2
    refine le_antisymm (lastProducer_le_iff.2 ⟨le_rfl, fun u he => ?_⟩)
      (lastProducer_le_iff.1 le_rfl).1
    have hnot := List.countP_eq_zero.1 hzero (u, v) he
    simp at hnot
  have hsorted : (start d).queue.Pairwise (· < ·) := List.pairwise_lt_range.filter _
  refine hsorted.imp_of_mem fun {u v} hu hv huv => ?_
  exact before_iff.2 (.inr ⟨(hnone u hu).trans (hnone v hv).symm, huv⟩)

/-- The nodes that were taken and those that wait behind them stay sorted: what is released joins
at the end, and its last producer is the node just taken. -/
lemma Drained.pairwise_step (h : q.Drained order) (hpop : q.pop? = some (v, q'))
    (hsorted : (order ++ q.queue).Pairwise (q.deps.Before order)) :
    ((order ++ [v]) ++ (q'.complete v).queue).Pairwise (q.deps.Before (order ++ [v])) := by
  obtain ⟨hqueue, hq'⟩ := pop?_eq_some_iff.1 hpop
  have hdeps : q'.deps = q.deps := by rw [hq']
  have hstep := h.step hpop
  have hseen : (order ++ [v]) ++ (q'.complete v).queue =
      (order ++ q.queue) ++ q'.released v := by
    rw [complete_queue, hqueue]
    simp
  have hv : v ∉ order := by
    have hnodup := h.sound.seen_nodup
    rw [hqueue, List.nodup_middle, List.nodup_cons] at hnodup
    exact fun hmem => hnodup.1 (List.mem_append_left _ hmem)
  have hold : ∀ w ∈ order ++ q.queue,
      q.deps.lastProducer (order ++ [v]) w = q.deps.lastProducer order w :=
    fun w hw => lastProducer_append (h.producers_mem hw) [v]
  have hnew : ∀ w ∈ q'.released v, q.deps.lastProducer (order ++ [v]) w = order.length := by
    intro w hw
    refine lastProducer_concat hv (hdeps ▸ (h.sound.pop? hpop).edge_of_released hw) ?_
    have hmem : w ∈ (order ++ [v]) ++ (q'.complete v).queue := by
      rw [hseen]
      exact List.mem_append_right _ hw
    have hproducers := hstep.producers_mem hmem
    rwa [complete_deps, hdeps] at hproducers
  rw [hseen, List.pairwise_append]
  refine ⟨?_, ?_, ?_⟩
  · exact hsorted.imp_of_mem fun hu hw huw => huw.congr (hold _ hu).symm (hold _ hw).symm
  · have hlt : (q'.released v).Pairwise (· < ·) := List.pairwise_lt_range.filter _
    refine hlt.imp_of_mem fun {u w} hu hw huw => ?_
    exact before_iff.2 (.inr ⟨(hnew u hu).trans (hnew w hw).symm, huw⟩)
  · intro u hu w hw
    rw [before_iff, hold u hu, hnew w hw]
    exact .inl (lastProducer_lt_length_iff.2 (h.producers_mem hu))

lemma Drained.pairwise_drain (n : ℕ) (h : q.Drained order)
    (hsorted : (order ++ q.queue).Pairwise (q.deps.Before order)) :
    (order ++ (q.drain n).1).Pairwise (q.deps.Before (order ++ (q.drain n).1)) := by
  induction n generalizing q order with
  | zero =>
    rw [ReadyQueue.drain, List.append_nil]
    exact (List.pairwise_append.1 hsorted).1
  | succ n ih =>
    rw [ReadyQueue.drain]
    cases hpop : q.pop? with
    | none =>
      show (order ++ []).Pairwise (q.deps.Before (order ++ []))
      rw [List.append_nil]
      exact (List.pairwise_append.1 hsorted).1
    | some step =>
      obtain ⟨v, q'⟩ := step
      have hdeps : (q'.complete v).deps = q.deps := by
        rw [complete_deps, (pop?_eq_some_iff.1 hpop).2]
      have hrest := ih (h.step hpop) (hdeps ▸ h.pairwise_step hpop hsorted)
      rw [hdeps] at hrest
      simpa using hrest

end ReadyQueue

/-! ## The order of a graph -/

namespace Graph

open ReadyQueue Dependencies

variable {g g' : Graph} {order order' : List ℕ}

/-- An order of all nodes is stable if it is sorted by the place that the last producer has in it
and, for equal places, by declaration. -/
structure Stable (g : Graph) (order : List ℕ) : Prop where
  perm : order.Perm (List.range g.size)
  sorted : order.Pairwise (g.dependencies.Before order)

lemma stable_of_order (h : g.topologicalOrder = .ok order) : g.Stable order := by
  refine ⟨order_perm h, ?_⟩
  obtain ⟨rfl, -⟩ := topologicalOrder_eq_ok_iff.1 h
  have hstart : (start g.dependencies).Drained [] := drained_start fun e he => edges_lt he
  simpa [scheduled] using hstart.pairwise_drain g.size (by simpa using pairwise_start _)

lemma Stable.eq_order (h : g.Stable order') (horder : g.topologicalOrder = .ok order) :
    order' = order :=
  eq_of_pairwise_before (h.perm.trans (order_perm horder).symm)
    (fun _ he => idxOf_lt_of_edge horder he) (stable_of_order horder).sorted h.sorted

/-! ### What the order depends on -/

lemma position?_congr (hids : g'.nodes.map Node.id = g.nodes.map Node.id) (id : String) :
    g'.position? id = g.position? id := by
  have hpos : ∀ g : Graph,
      g.position? id = (g.nodes.map Node.id).findIdx? fun k => decide (k = id) := by
    intro g
    rw [List.findIdx?_map]
    rfl
  rw [hpos, hpos, hids]

/-- The pairs of a producer and its consumer, by their places. -/
lemma mem_edges_iff_leads {u v : ℕ} : (u, v) ∈ g.dependencies.edges ↔
    ∃ a b, g.Leads a b ∧ g.position? a = some u ∧ g.position? b = some v := by
  rw [mem_edges_iff]
  constructor
  · rintro ⟨c, hc, hu, hv⟩
    exact ⟨_, _, ⟨c, hc, rfl, rfl⟩, hu, hv⟩
  · rintro ⟨_, _, ⟨c, hc, rfl, rfl⟩, hu, hv⟩
    exact ⟨c, hc, hu, hv⟩

/-- A stable order stays stable when connections are repeated or listed in another order. -/
lemma Stable.congr (h : g.Stable order) (hids : g'.nodes.map Node.id = g.nodes.map Node.id)
    (hleads : ∀ a b, g'.Leads a b ↔ g.Leads a b) : g'.Stable order := by
  have hsize : g'.size = g.size := by
    simpa [Graph.size] using congrArg List.length hids
  have hplace : ∀ v,
      g.dependencies.lastProducer order v = g'.dependencies.lastProducer order v := by
    intro v
    refine lastProducer_congr (fun u => ?_) fun _ _ => rfl
    simp only [mem_edges_iff_leads, hleads, position?_congr hids]
  exact ⟨hsize ▸ h.perm, h.sorted.imp fun huv => huv.congr (hplace _) (hplace _)⟩

/-- **Ties are broken by declaration order**: the order of a graph without a cycle is the only
permutation of its nodes that is sorted by the place of the last producer, measured in the
permutation itself, and by declaration among nodes with the same place.  So it depends on the
declared ids and on the set of the pairs of producer and consumer, and not on the order or the
number of the connections. -/
theorem order_stable (h : g.Acyclic) :
    ∃ order, g.topologicalOrder = .ok order ∧ g.Stable order ∧
      (∀ order', g.Stable order' → order' = order) ∧
      ∀ g' : Graph, g'.nodes.map Node.id = g.nodes.map Node.id →
        (∀ a b, g'.Leads a b ↔ g.Leads a b) → g'.topologicalOrder = .ok order := by
  obtain ⟨order, horder⟩ := exists_order h
  refine ⟨order, horder, stable_of_order horder, fun order' h' => h'.eq_order horder, ?_⟩
  intro g' hids hleads
  have hacyclic : g'.Acyclic := by
    have hrel : g'.Leads = g.Leads := funext₂ fun a b => propext (hleads a b)
    rwa [Acyclic, hrel]
  obtain ⟨order', horder'⟩ := exists_order hacyclic
  rw [horder', ((stable_of_order horder).congr hids hleads).eq_order horder']

/-- The nodes of `joining` with one connection for each pair that it connects, the last one
first. -/
def rejoining : Graph where
  nodes := joining.nodes
  connections := [
    ⟨"sum", "out", "log", "entry"⟩, ⟨"code", "text", "sum", "source"⟩, ⟨"one", "out", "sum", "b"⟩]
  valid := valid_of_fault?_eq_none (by decide)

theorem order_stable_joining :
    joining.Acyclic ∧ joining.Stable [1, 2, 0, 3] ∧
      rejoining.topologicalOrder = .ok [1, 2, 0, 3] := by
  have horder : joining.topologicalOrder = .ok [1, 2, 0, 3] := by decide
  have hacyclic : joining.Acyclic := acyclic_of_order horder
  obtain ⟨order, hok, hstable, -, hsame⟩ := order_stable hacyclic
  obtain rfl : order = [1, 2, 0, 3] := Except.ok.inj (hok.symm.trans horder)
  refine ⟨hacyclic, hstable, hsame rejoining rfl fun a b => ?_⟩
  simp only [Leads, joining, rejoining, List.exists_mem_cons_iff, List.not_mem_nil, false_and,
    exists_false, or_false]
  tauto

end Graph

end Dataflow

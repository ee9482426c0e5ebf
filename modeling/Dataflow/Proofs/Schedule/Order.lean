import Mathlib.Data.Finite.Prod
import Mathlib.Data.Fintype.Card
import Mathlib.Data.Set.Finite.Basic
import Mathlib.Order.WellFounded
import Dataflow.Proofs.Schedule.Queue

/-!
# The order of a graph

Nodes that are taken from the head of the queue and completed at once come out in an order in
which every edge leads forward (`Drained.step`).  When the queue runs dry early, every node
that is left waits for another one that is left, and among finitely many nodes that means a
cycle.  So a graph has an order if and only if its connections have no cycle.
-/

namespace Dataflow

/-! ## Finite sets without a source -/

/-- In a finite set whose members all have a predecessor in it, every member is reached from a
cycle. -/
lemma exists_cycle_of_forall_exists_pred {α : Type} {R : α → α → Prop} {s : Set α}
    (hs : s.Finite) (hpred : ∀ v ∈ s, ∃ u ∈ s, R u v) {v : α} (hv : v ∈ s) :
    ∃ c ∈ s, Relation.TransGen R c c ∧ Relation.ReflTransGen R c v := by
  by_contra hnone
  push Not at hnone
  let t : Set α := {u ∈ s | Relation.ReflTransGen R u v}
  have htfin : Finite t := hs.subset fun u hu => hu.1
  let S : t → t → Prop := fun a b => Relation.TransGen R a b
  have : IsTrans t S := ⟨fun _ _ _ hab hbc => hab.trans hbc⟩
  have : Std.Irrefl S := ⟨fun a ha => hnone a a.2.1 ha a.2.2⟩
  have hwf : WellFounded S := Finite.wellFounded_of_trans_of_irrefl S
  -- a member without a predecessor among those that reach `v` contradicts `hpred`
  obtain ⟨m, -, hmin⟩ := hwf.has_min Set.univ ⟨⟨v, hv, .refl⟩, trivial⟩
  obtain ⟨u, hu, hum⟩ := hpred m m.2.1
  exact hmin ⟨u, hu, .head hum m.2.2⟩ trivial (.single hum)

namespace ReadyQueue

variable {q q' : ReadyQueue} {order : List ℕ} {v : ℕ}

/-! ## Taking and completing nodes -/

/-- A queue from which the nodes of `order` were taken one by one, each completed at once. -/
structure Drained (order : List ℕ) (q : ReadyQueue) : Prop where
  sound : q.Sound order
  processed_iff : ∀ v, q.states[v]? = some .processed ↔ v ∈ order
  ready_iff : ∀ v, q.states[v]? = some .ready ↔ v ∈ q.queue
  ordered : ∀ e ∈ q.deps.edges, e.2 ∈ order → e.1 ∈ order ∧ order.idxOf e.1 < order.idxOf e.2

lemma drained_start {d : Dependencies} (hd : ∀ e ∈ d.edges, e.1 < d.size ∧ e.2 < d.size) :
    (start d).Drained [] where
  sound := sound_start hd
  processed_iff := by
    intro v
    simpa using states_start_ne_processed d v
  ready_iff := by
    intro v
    rw [mem_queue_start]
    constructor
    · intro h
      have hv : v < d.size := by
        have hlt := (List.getElem?_eq_some_iff.1 h).1
        simpa [start] using hlt
      rw [states_start hv] at h
      refine ⟨hv, ?_⟩
      by_contra hne
      simp [hne] at h
    · rintro ⟨hv, hzero⟩
      rw [states_start hv, if_pos hzero]
  ordered := by simp

/-- All producers of a visited node are processed. -/
lemma Sound.processed_of_edge {taken : List ℕ} (h : q.Sound taken) {e : ℕ × ℕ}
    (he : e ∈ q.deps.edges) (hvisited : q.states[e.2]? ≠ some .unvisited) :
    q.states[e.1]? = some .processed := by
  have hzero := h.pending_eq_zero (h.edges_lt e he).2 hvisited
  have hnot := List.countP_eq_zero.1 hzero e he
  simpa using hnot

lemma Drained.step (h : q.Drained order) (hpop : q.pop? = some (v, q')) :
    (q'.complete v).Drained (order ++ [v]) := by
  obtain ⟨hqueue, hq'⟩ := pop?_eq_some_iff.1 hpop
  have hstates : q'.states = q.states := by rw [hq']
  have hdeps : q'.deps = q.deps := by rw [hq']
  have hsound := h.sound.pop? hpop
  have hready : q'.states[v]? = some .ready := by
    rw [hstates, h.ready_iff, hqueue]
    exact List.mem_cons_self
  have hv : v < q'.deps.size := hsound.length_states ▸ (List.getElem?_eq_some_iff.1 hready).1
  have hnodup := h.sound.seen_nodup
  rw [hqueue, List.nodup_append] at hnodup
  obtain ⟨-, hqnodup, hdisjoint⟩ := hnodup
  have hvorder : v ∉ order := fun hmem => hdisjoint v hmem v List.mem_cons_self rfl
  have hvqueue : v ∉ q'.queue := (List.nodup_cons.1 hqnodup).1
  refine ⟨hsound.complete hready, ?_, ?_, ?_⟩
  · intro w
    rw [processed_complete hsound hv, hstates, h.processed_iff, List.mem_append,
      List.mem_singleton, or_comm]
  · intro w
    rw [states_complete hsound hready, complete_queue, List.mem_append]
    by_cases hwv : w = v
    · subst hwv
      have hrel : w ∉ q'.released w := fun hmem => ((mem_released hsound).1 hmem).2.2.1 rfl
      simp [hvqueue, hrel]
    · by_cases hrel : w ∈ q'.released v
      · simp [hwv, hrel]
      · rw [if_neg hwv, if_neg hrel, hstates, h.ready_iff, hqueue, List.mem_cons]
        simp [hwv, hrel]
  · intro e he hmem
    rw [complete_deps, hdeps] at he
    rcases List.mem_append.1 hmem with hold | hnew
    · obtain ⟨hfrom, hlt⟩ := h.ordered e he hold
      refine ⟨List.mem_append_left _ hfrom, ?_⟩
      rwa [List.idxOf_append_of_mem hfrom, List.idxOf_append_of_mem hold]
    · -- the node just taken: its producers were processed before
      have hev : e.2 = v := List.mem_singleton.1 hnew
      have hvisited : q.states[e.2]? ≠ some .unvisited := by
        rw [hev, ← hstates, hready]
        simp
      have hfrom : e.1 ∈ order :=
        (h.processed_iff e.1).1 (h.sound.processed_of_edge he hvisited)
      refine ⟨List.mem_append_left _ hfrom, ?_⟩
      rw [List.idxOf_append_of_mem hfrom, hev, List.idxOf_append_of_notMem hvorder]
      have hlt := List.idxOf_lt_length_of_mem hfrom
      omega

/-- What a number of rounds leaves: all of them were made, or the queue ran dry. -/
lemma Drained.drain (n : ℕ) (h : q.Drained order) :
    (q.drain n).2.Drained (order ++ (q.drain n).1) ∧
      ((q.drain n).1.length = n ∨ (q.drain n).2.queue = []) := by
  induction n generalizing q order with
  | zero => simpa [ReadyQueue.drain] using h
  | succ n ih =>
    rw [ReadyQueue.drain]
    cases hpop : q.pop? with
    | none =>
      have hempty : q.queue = [] := by
        unfold pop? at hpop
        split at hpop
        · assumption
        · simp at hpop
      simpa [hempty] using h
    | some step =>
      obtain ⟨v, q'⟩ := step
      obtain ⟨hdrained, hend⟩ := ih (h.step hpop)
      refine ⟨by simpa using hdrained, ?_⟩
      rcases hend with hlen | hempty
      · exact .inl (by simp [hlen])
      · exact .inr hempty

@[simp] lemma drain_deps (n : ℕ) (q : ReadyQueue) : (q.drain n).2.deps = q.deps := by
  induction n generalizing q with
  | zero => rfl
  | succ n ih =>
    rw [ReadyQueue.drain]
    cases hpop : q.pop? with
    | none => rfl
    | some step =>
      obtain ⟨v, q'⟩ := step
      have hq' := (pop?_eq_some_iff.1 hpop).2
      simp only [ih, complete_deps]
      rw [hq']

end ReadyQueue

/-! ## Graphs -/

namespace Graph

open ReadyQueue

variable {g : Graph} {order : List ℕ}

lemma drained_scheduled (g : Graph) :
    g.scheduled.2.Drained g.scheduled.1 ∧
      (g.scheduled.1.length = g.size ∨ g.scheduled.2.queue = []) := by
  have hstart : (start g.dependencies).Drained [] := drained_start fun e he => edges_lt he
  simpa [scheduled] using hstart.drain g.size

@[simp] lemma scheduled_deps (g : Graph) : g.scheduled.2.deps = g.dependencies := by
  simp [scheduled]

lemma scheduled_nodup (g : Graph) : g.scheduled.1.Nodup :=
  (List.nodup_append.1 (drained_scheduled g).1.sound.seen_nodup).1

lemma scheduled_subset (g : Graph) : g.scheduled.1 ⊆ List.range g.size := by
  intro v hv
  have hlt := (drained_scheduled g).1.sound.seen_lt v (List.mem_append_left _ hv)
  rw [scheduled_deps] at hlt
  exact List.mem_range.2 hlt

lemma topologicalOrder_eq_ok_iff :
    g.topologicalOrder = .ok order ↔ g.scheduled.1 = order ∧ g.size ≤ order.length := by
  unfold topologicalOrder
  simp only
  split
  · simp only [reduceCtorEq, false_iff, not_and]
    rintro rfl
    omega
  · simp only [Except.ok.injEq]
    constructor
    · rintro rfl
      exact ⟨rfl, by omega⟩
    · exact fun h => h.1

/-- An order has every node once. -/
lemma order_perm (h : g.topologicalOrder = .ok order) : order.Perm (List.range g.size) := by
  obtain ⟨rfl, hlen⟩ := topologicalOrder_eq_ok_iff.1 h
  -- distinct places of the graph, and as many as there are
  have hsub := (scheduled_nodup g).subperm (scheduled_subset g)
  exact hsub.perm_of_length_le (by simpa using hlen)

/-- Every edge leads forward in an order. -/
lemma idxOf_lt_of_edge (h : g.topologicalOrder = .ok order) {u v : ℕ}
    (he : (u, v) ∈ g.dependencies.edges) : order.idxOf u < order.idxOf v := by
  have hv : v ∈ order := (order_perm h).mem_iff.2 (List.mem_range.2 (edges_lt he).2)
  obtain ⟨rfl, -⟩ := topologicalOrder_eq_ok_iff.1 h
  have hdeps := scheduled_deps g
  exact ((drained_scheduled g).1.ordered (u, v) (hdeps ▸ he) hv).2

/-- A graph with an order has no cycle, because places grow along every connection. -/
lemma acyclic_of_order (h : g.topologicalOrder = .ok order) : g.Acyclic := by
  let place : String → ℕ := fun id => order.idxOf ((g.position? id).getD 0)
  have hgrow : ∀ a b, Relation.TransGen g.Leads a b → place a < place b := by
    intro a b hab
    induction hab with
    | single hlead =>
      obtain ⟨c, hc, rfl, rfl⟩ := hlead
      obtain ⟨u, v, hu, hv⟩ := exists_positions hc
      simpa [place, hu, hv] using idxOf_lt_of_edge h (mem_edges_iff.2 ⟨c, hc, hu, hv⟩)
    | tail _ hlead ih =>
      obtain ⟨c, hc, rfl, rfl⟩ := hlead
      obtain ⟨u, v, hu, hv⟩ := exists_positions hc
      have hstep : place c.fromNode < place c.toNode := by
        simpa [place, hu, hv] using idxOf_lt_of_edge h (mem_edges_iff.2 ⟨c, hc, hu, hv⟩)
      exact ih.trans hstep
  exact fun id hcycle => lt_irrefl _ (hgrow id id hcycle)

/-! ### Graphs without an order -/

/-- A node is stuck if it is not in the order when no node is ready any more. -/
def Stuck (g : Graph) (v : ℕ) : Prop := v < g.size ∧ v ∉ g.scheduled.1

lemma finite_stuck (g : Graph) : {v | g.Stuck v}.Finite :=
  (Set.finite_lt_nat g.size).subset fun _ hv => hv.1

/-- Where the queue ran dry, each stuck node waits for a stuck one. -/
lemma exists_stuck_producer (hshort : g.scheduled.1.length < g.size) {v : ℕ} (hv : g.Stuck v) :
    ∃ u, g.Stuck u ∧ (u, v) ∈ g.dependencies.edges := by
  obtain ⟨hdrained, hend⟩ := drained_scheduled g
  have hempty : g.scheduled.2.queue = [] := hend.resolve_left (by omega)
  have hdeps := scheduled_deps g
  have hsize : v < g.scheduled.2.deps.size := by rw [hdeps]; exact hv.1
  -- a node that is neither processed nor in the empty queue is unvisited
  have hunvisited : g.scheduled.2.states[v]? = some .unvisited := by
    have hlt : v < g.scheduled.2.states.length := hdrained.sound.length_states ▸ hsize
    have hprocessed := mt (hdrained.processed_iff v).1 hv.2
    have hready := mt (hdrained.ready_iff v).1 (by rw [hempty]; simp)
    rw [List.getElem?_eq_getElem hlt] at hprocessed hready ⊢
    cases hs : g.scheduled.2.states[v] with
    | unvisited => rfl
    | ready => exact absurd (congrArg some hs) hready
    | processed => exact absurd (congrArg some hs) hprocessed
  obtain ⟨e, he, hopen⟩ :=
    List.countP_pos_iff.1 ((hdrained.sound.unvisited_iff v hsize).1 hunvisited)
  obtain ⟨rfl, hfrom⟩ : e.2 = v ∧ g.scheduled.2.states[e.1]? ≠ some .processed := by
    simpa using hopen
  rw [hdeps] at he
  exact ⟨e.1, ⟨(edges_lt he).1, mt (hdrained.processed_iff e.1).2 hfrom⟩, he⟩

lemma exists_stuck (hshort : g.scheduled.1.length < g.size) : ∃ v, g.Stuck v := by
  by_contra hnone
  push Not at hnone
  have hall : List.range g.size ⊆ g.scheduled.1 := by
    intro v hv
    by_contra hmem
    exact hnone v ⟨List.mem_range.1 hv, hmem⟩
  have hle := (List.nodup_range.subperm hall).length_le
  rw [List.length_range] at hle
  omega

/-- The place of a stuck node belongs to an id. -/
lemma Stuck.exists_id {v : ℕ} (hv : g.Stuck v) : ∃ id, g.position? id = some v := by
  obtain ⟨n, hn⟩ : ∃ n, g.nodes[v]? = some n := ⟨_, List.getElem?_eq_getElem hv.1⟩
  exact ⟨n.id, position?_eq_some_iff.2 ⟨n, hn, rfl⟩⟩

/-- A graph without a cycle has an order. -/
lemma exists_order (h : g.Acyclic) : ∃ order, g.topologicalOrder = .ok order := by
  by_cases hshort : g.scheduled.1.length < g.size
  · exfalso
    -- the stuck nodes are finitely many, and each has a stuck one before it
    obtain ⟨v, hv⟩ := exists_stuck hshort
    obtain ⟨c, hc, hcycle, -⟩ := exists_cycle_of_forall_exists_pred
      (R := fun a b => (a, b) ∈ g.dependencies.edges) (finite_stuck g)
      (fun w hw => exists_stuck_producer hshort hw) hv
    obtain ⟨id, hid⟩ := Stuck.exists_id hc
    exact h id (transGen_leads hcycle hid hid)
  · exact ⟨g.scheduled.1, topologicalOrder_eq_ok_iff.2 ⟨rfl, by omega⟩⟩

/-- **A graph has an order exactly when its connections have no cycle**, and an order has
every node once, the origin of each connection in front of its target. -/
theorem topologicalOrder_ok_iff_acyclic (g : Graph) :
    ((∃ order, g.topologicalOrder = .ok order) ↔ g.Acyclic) ∧
      ∀ order, g.topologicalOrder = .ok order →
        order.Perm (List.range g.size) ∧
          ∀ c ∈ g.connections, ∃ u v, g.position? c.fromNode = some u ∧
            g.position? c.toNode = some v ∧ order.idxOf u < order.idxOf v := by
  refine ⟨⟨fun ⟨_, h⟩ => acyclic_of_order h, exists_order⟩, fun order h => ?_⟩
  refine ⟨order_perm h, fun c hc => ?_⟩
  obtain ⟨u, v, hu, hv⟩ := exists_positions hc
  exact ⟨u, v, hu, hv, idxOf_lt_of_edge h (mem_edges_iff.2 ⟨c, hc, hu, hv⟩)⟩

/-- A graph whose first node waits for two others, for one of them twice and for the other
because it brings the function; the last node declares no input and waits all the same. -/
def joining : Graph where
  nodes := [
    ⟨"sum", "add", [⟨"a", none, none⟩, ⟨"b", none, none⟩], [⟨"out", none⟩], none, none, none⟩,
    ⟨"one", "one", [], [⟨"out", none⟩], none, none, none⟩,
    ⟨"code", "code", [], [⟨"text", none⟩], none, none, none⟩,
    ⟨"log", "log", [], [], none, none, none⟩]
  connections := [
    ⟨"one", "out", "sum", "a"⟩, ⟨"one", "out", "sum", "b"⟩, ⟨"code", "text", "sum", "source"⟩,
    ⟨"sum", "out", "log", "entry"⟩]
  valid := valid_of_fault?_eq_none (by decide)

theorem topologicalOrder_joining :
    joining.topologicalOrder = .ok [1, 2, 0, 3] ∧ joining.Acyclic ∧
      [1, 2, 0, 3].Perm (List.range joining.size) ∧
        ∃ u v, joining.position? "code" = some u ∧ joining.position? "sum" = some v ∧
          [1, 2, 0, 3].idxOf u < [1, 2, 0, 3].idxOf v := by
  have horder : joining.topologicalOrder = .ok [1, 2, 0, 3] := by decide
  obtain ⟨hiff, hall⟩ := topologicalOrder_ok_iff_acyclic joining
  obtain ⟨hperm, hforward⟩ := hall _ horder
  exact ⟨horder, hiff.1 ⟨_, horder⟩, hperm,
    hforward ⟨"code", "text", "sum", "source"⟩ (by decide)⟩

end Graph

end Dataflow

import Mathlib.Logic.Function.Basic
import Dataflow.Proofs.Run.Task

/-!
# Who waits for whom in a parallel run

A node owes an edge as long as its task has not counted the edge down.  In every state of a
parallel run the counter of a place is the number of edges to it that are owed, and every place
has one of five standings (`Control`, `Standing`).  It follows that a task which is at work
finds the outputs of all nodes that have its node as a successor (`Control.stored`), and that
a run without tasks has stored the outputs of all nodes, unless it was cancelled
(`Control.all_stored`).
-/

namespace Dataflow

/-! ## Edges that are owed -/

/-- A list of lists from which one head is taken. -/
lemma flatMap_update_perm {l : List ℕ} (hl : l.Nodup) {place : ℕ} (hplace : place ∈ l)
    {owed : ℕ → List ℕ} {next : ℕ} {rest : List ℕ} (howed : owed place = next :: rest) :
    (l.flatMap owed).Perm (next :: l.flatMap (Function.update owed place rest)) := by
  obtain ⟨l₁, l₂, rfl⟩ := List.append_of_mem hplace
  have hne : ∀ u ∈ l₁ ++ l₂, u ≠ place := by
    rintro u hu rfl
    exact (List.nodup_cons.1 (List.nodup_middle.1 hl)).1 hu
  have hsame : ∀ l' : List ℕ, l' ⊆ l₁ ++ l₂ →
      l'.flatMap (Function.update owed place rest) = l'.flatMap owed := by
    intro l' hl'
    exact List.flatMap_congr fun u hu => Function.update_of_ne (hne u (hl' hu)) _ _
  simp only [List.flatMap_append, List.flatMap_cons, howed, Function.update_self,
    hsame l₁ (List.subset_append_left _ _), hsame l₂ (List.subset_append_right _ _),
    List.cons_append]
  exact List.perm_middle

namespace Plan

variable {p : Plan} {owed : ℕ → List ℕ} {u v : ℕ}

/-- The successors of the node at a place. -/
def successorsAt (p : Plan) (place : ℕ) : List ℕ := p.nodes[place]?.elim [] PlannedNode.successors

/-- The number of edges to a place that are owed. -/
def waits (p : Plan) (owed : ℕ → List ℕ) (v : ℕ) : ℕ := ((List.range p.size).flatMap owed).count v

lemma waits_pos (hu : u < p.size) (hv : v ∈ owed u) : 0 < p.waits owed v :=
  List.count_pos_iff.2 (List.mem_flatMap.2 ⟨u, List.mem_range.2 hu, hv⟩)

lemma exists_owed (h : 0 < p.waits owed v) : ∃ u < p.size, v ∈ owed u := by
  obtain ⟨u, hu, hv⟩ := List.mem_flatMap.1 (List.count_pos_iff.1 h)
  exact ⟨u, List.mem_range.1 hu, hv⟩

/-- Counting down an edge takes one away where the edge leads. -/
lemma waits_update {next : ℕ} {rest : List ℕ} (hu : u < p.size) (howed : owed u = next :: rest) :
    p.waits owed v = p.waits (Function.update owed u rest) v + if next = v then 1 else 0 := by
  have hperm := flatMap_update_perm List.nodup_range (List.mem_range.2 hu) howed
  rw [waits, hperm.count_eq, List.count_cons, waits]
  simp

/-- At the start, all edges are owed. -/
lemma waits_successorsAt (p : Plan) (v : ℕ) : p.waits p.successorsAt v = p.edgesInto v := by
  have key : ∀ l : List PlannedNode, (List.range l.length).flatMap
      (fun i => l[i]?.elim [] PlannedNode.successors) = l.flatMap PlannedNode.successors := by
    intro l
    induction l with
    | nil => rfl
    | cons n l ih =>
      rw [List.length_cons, List.range_succ_eq_map, List.flatMap_cons, List.flatMap_map,
        List.flatMap_cons, ← ih]
      rfl
  rw [waits, edgesInto, ← key p.nodes]
  rfl

end Plan

/-! ## Standings -/

/-- The standings of a place: what its task does next, whether its outputs are stored, its
counter, and the edges that it owes. -/
inductive Standing (cancelled : Bool) (successors : List ℕ) :
    Option Phase → Bool → ℕ → List ℕ → Prop where
  | blocked {c : ℕ} (h : 0 < c) : Standing cancelled successors none false c successors
  | working {phase : Phase} (h : phase.isReleasing = false) :
    Standing cancelled successors (some phase) false 0 successors
  | releasing {rest : List ℕ} (h : rest <:+ successors) :
    Standing cancelled successors (some (.releasing rest)) true 0 rest
  | done : Standing cancelled successors none true 0 []
  /-- The task found the token cancelled. -/
  | skipped (h : cancelled = true) : Standing cancelled successors none false 0 successors

namespace Standing

variable {cancelled cancelled' : Bool} {successors owed : List ℕ} {phase? : Option Phase}
  {stored : Bool} {c : ℕ}

lemma mono (h : Standing cancelled successors phase? stored c owed)
    (hcancelled : cancelled = true → cancelled' = true) :
    Standing cancelled' successors phase? stored c owed := by
  cases h with
  | blocked hc => exact .blocked hc
  | working hphase => exact .working hphase
  | releasing hrest => exact .releasing hrest
  | done => exact .done
  | skipped hskip => exact .skipped (hcancelled hskip)

lemma owed_suffix (h : Standing cancelled successors phase? stored c owed) :
    owed <:+ successors := by
  cases h with
  | blocked _ => exact List.suffix_rfl
  | working _ => exact List.suffix_rfl
  | releasing hrest => exact hrest
  | done => exact List.nil_suffix
  | skipped _ => exact List.suffix_rfl

/-- A place that has not stored its outputs owes all its edges. -/
lemma owed_eq (h : Standing cancelled successors phase? false c owed) : owed = successors := by
  cases h <;> rfl

lemma of_working {phase : Phase} (h : Standing cancelled successors (some phase) stored c owed)
    (hphase : phase.isReleasing = false) : stored = false ∧ c = 0 ∧ owed = successors := by
  cases h with
  | working _ => exact ⟨rfl, rfl, rfl⟩
  | releasing _ => simp [Phase.isReleasing] at hphase

lemma of_releasing {rest : List ℕ}
    (h : Standing cancelled successors (some (.releasing rest)) stored c owed) :
    stored = true ∧ c = 0 ∧ owed = rest := by
  cases h with
  | working hphase => simp [Phase.isReleasing] at hphase
  | releasing _ => exact ⟨rfl, rfl, rfl⟩

/-- A place without a task, in a run that is not cancelled. -/
lemma of_idle (h : Standing false successors none stored c owed) :
    (0 < c ∧ stored = false) ∨ (stored = true ∧ owed = []) := by
  cases h with
  | blocked hc => exact .inl ⟨hc, rfl⟩
  | done => exact .inr ⟨rfl, rfl⟩
  | skipped hskip => simp at hskip

lemma of_pos (h : Standing cancelled successors phase? stored c owed) (hc : 0 < c) :
    phase? = none ∧ stored = false ∧ owed = successors := by
  cases h with
  | blocked _ => exact ⟨rfl, rfl, rfl⟩
  | working _ => omega
  | releasing _ => omega
  | done => omega
  | skipped _ => exact ⟨rfl, rfl, rfl⟩

/-- A place that has stored its outputs waits for nothing. -/
lemma counter_of_stored (h : Standing cancelled successors phase? true c owed) : c = 0 := by
  cases h <;> rfl

/-- Counting down an edge to a place that waits for it gives the place a task if it was the
last one. -/
lemma count_down {phase?' : Option Phase} (hc : 0 < c)
    (h : Standing cancelled successors phase? stored c owed)
    (hphase : phase?' = if c = 1 then some .waiting else phase?) :
    Standing cancelled successors phase?' stored (c - 1) owed := by
  obtain ⟨rfl, rfl, rfl⟩ := h.of_pos hc
  rw [hphase]
  by_cases hone : c = 1
  · rw [if_pos hone, hone]
    exact .working rfl
  · rw [if_neg hone]
    exact .blocked (by omega)

end Standing

/-! ## The invariant -/

/-- The tasks, the stored outputs and the counters of a run agree with the edges that are
owed. -/
structure Control (p : Plan) (owed : ℕ → List ℕ) (m : Machine) : Prop where
  places_nodup : (m.tasks.map Task.place).Nodup
  outside : ∀ q, p.size ≤ q → m.phase? q = none
  length_slots : m.shared.slots.length = p.size
  counter_eq : ∀ v < p.size, m.shared.counters[v]? = some (p.waits owed v)
  standing : ∀ q n, p.nodes[q]? = some n → Standing m.shared.cancelled n.successors (m.phase? q)
    (m.shared.view q).isSome (p.waits owed q) (owed q)
  stopped_of_cancelled : m.shared.cancelled = true → m.shared.stopped = true

namespace Control

open Machine

variable {env : Environment} {token : Option CancelToken} {p : Plan} {owed : ℕ → List ℕ}
  {m m' : Machine} {place q i j : ℕ} {n : PlannedNode} {phase : Phase} {a : Advance}

/-! ### What it says about a state -/

lemma place_lt (h : Control p owed m) (t : Task) (ht : t ∈ m.tasks) : t.place < p.size := by
  by_contra hge
  exact phase?_eq_none_iff.1 (h.outside t.place (by omega)) t ht rfl

lemma phase?_of_counter (h : Control p owed m) (hq : m.shared.counters[q]? = some 1) :
    m.phase? q = none := by
  by_cases hlt : q < p.size
  · obtain ⟨n, hn⟩ := Plan.exists_node hlt
    have hcount : p.waits owed q = 1 := by
      rw [h.counter_eq q hlt] at hq
      exact Option.some.inj hq
    exact ((h.standing q n hn).of_pos (by omega)).1
  · exact h.outside q (by omega)

/-- A node whose task has started finds the outputs of the nodes that lead to it. -/
lemma stored (h : Control p owed m) (hphase : m.phase? i = some phase)
    (hj : p.nodes[j]? = some n) (hi : i ∈ n.successors) (hlt : i < p.size) :
    ∃ outputs, m.shared.view j = some outputs := by
  obtain ⟨ni, hni⟩ := Plan.exists_node hlt
  rw [← Option.isSome_iff_exists]
  -- otherwise `j` owes all its edges, and `i` waits without a task
  by_contra hnone
  have hstanding := h.standing j n hj
  rw [Bool.not_eq_true] at hnone
  rw [hnone] at hstanding
  have hpos : 0 < p.waits owed i :=
    Plan.waits_pos (Plan.lt_size_of_getElem? hj) (by rw [hstanding.owed_eq]; exact hi)
  have hno := ((h.standing i ni hni).of_pos hpos).1
  rw [hphase] at hno
  simp at hno

/-- When no task is left, all outputs are stored, unless the run was cancelled. -/
lemma all_stored (h : Control p owed m) (hp : p.Linked) (htasks : m.tasks = [])
    (hcancelled : m.shared.cancelled = false) (hq : q < p.size) :
    ∃ outputs, m.shared.view q = some outputs := by
  have hnone : ∀ q, m.phase? q = none := fun q => phase?_eq_none_iff.2 (by simp [htasks])
  -- by induction on the place: the nodes that lead to it stand before it
  induction q using Nat.strongRecOn with
  | ind q ih =>
    obtain ⟨n, hn⟩ := Plan.exists_node hq
    have hidle : ∀ {u nu}, p.nodes[u]? = some nu → _ := fun {u nu} hu =>
      Standing.of_idle (hnone u ▸ hcancelled ▸ h.standing u nu hu)
    rw [← Option.isSome_iff_exists]
    rcases hidle hn with ⟨hcount, -⟩ | ⟨hstored, -⟩
    · -- a place that is blocked waits for an earlier one, which owes nothing any more
      exfalso
      obtain ⟨u, hu, hmem⟩ := Plan.exists_owed hcount
      obtain ⟨nu, hnu⟩ := Plan.exists_node hu
      have huq : u < q := (hp.forward hnu q ((h.standing u nu hnu).owed_suffix.subset hmem)).1
      obtain ⟨outputs, houtputs⟩ := ih u huq hu
      rcases hidle hnu with ⟨-, hstored⟩ | ⟨-, howed⟩
      · simp [houtputs] at hstored
      · simp [howed] at hmem
    · exact hstored

/-! ### The start -/

lemma places_start_nodup (p : Plan) (stopped : Bool) :
    ((Machine.start p stopped).tasks.map Task.place).Nodup := by
  rw [Machine.start, List.map_map, List.map_reverse, List.nodup_reverse]
  have hsub : ((p.nodes.zipIdx.filter fun n => n.1.dependencyCount == 0).map Prod.snd).Sublist
      (p.nodes.zipIdx.map Prod.snd) := List.filter_sublist.map _
  rw [List.zipIdx_map_snd] at hsub
  exact List.Nodup.sublist hsub (List.nodup_range' 1)

/-- At the start there are tasks for the nodes that wait for nothing. -/
lemma phase?_start (stopped : Bool) (hn : p.nodes[q]? = some n) :
    (Machine.start p stopped).phase? q =
      if n.dependencyCount = 0 then some .waiting else none := by
  by_cases hzero : n.dependencyCount = 0
  · rw [if_pos hzero, phase?_eq_some_iff (places_start_nodup p stopped)]
    refine List.mem_map.2 ⟨(n, q), List.mem_reverse.2 (List.mem_filter.2 ⟨?_, by simpa⟩), rfl⟩
    exact List.mk_mem_zipIdx_iff_getElem?.2 hn
  · rw [if_neg hzero, phase?_eq_none_iff]
    intro t ht hplace
    obtain ⟨⟨n', q'⟩, hmem, rfl⟩ := List.mem_map.1 ht
    obtain ⟨hzip, hzero'⟩ := List.mem_filter.1 (List.mem_reverse.1 hmem)
    have hn' := List.mk_mem_zipIdx_iff_getElem?.1 hzip
    obtain rfl : q' = q := hplace
    obtain rfl : n' = n := Option.some.inj (hn'.symm.trans hn)
    exact hzero (by simpa using hzero')

lemma view_start (p : Plan) (stopped : Bool) (q : ℕ) :
    (Machine.start p stopped).shared.view q = none := by
  simp only [Machine.start, Shared.view, List.getElem?_map]
  cases p.nodes[q]? <;> rfl

lemma start (hp : p.Linked) (stopped : Bool) : Control p p.successorsAt (.start p stopped) := by
  refine ⟨places_start_nodup p stopped, ?_, ?_, ?_, ?_, ?_⟩
  · intro q hq
    rw [phase?_eq_none_iff]
    rintro t ht rfl
    obtain ⟨⟨n, q⟩, hmem, rfl⟩ := List.mem_map.1 ht
    have hn := List.mk_mem_zipIdx_iff_getElem?.1 (List.mem_of_mem_filter (List.mem_reverse.1 hmem))
    have hlt := Plan.lt_size_of_getElem? hn
    exact absurd hq (by simpa using hlt)
  · simp [Machine.start, Plan.size]
  · intro v hv
    obtain ⟨n, hn⟩ := Plan.exists_node hv
    rw [Plan.waits_successorsAt, ← hp.counted hn, Machine.start, List.getElem?_map, hn]
    rfl
  · intro q n hn
    have hsuccessors : p.successorsAt q = n.successors := by rw [Plan.successorsAt, hn]; rfl
    rw [phase?_start stopped hn, view_start, Plan.waits_successorsAt, ← hp.counted hn, hsuccessors]
    by_cases hzero : n.dependencyCount = 0
    · rw [if_pos hzero, hzero]
      exact .working rfl
    · rw [if_neg hzero]
      exact .blocked (Nat.pos_of_ne_zero hzero)
  · intro hcancelled
    simp [Machine.start] at hcancelled

/-! ### Steps -/

lemma advance_of_counters (h : Control p owed m) (hadv : Advances env token p m m' place n phase a)
    (hspawned : a.spawned = none) (hcounters : a.shared.counters = m.shared.counters)
    (hview : ∀ q, q ≠ place → a.shared.view q = m.shared.view q)
    (hlength : a.shared.slots.length = m.shared.slots.length)
    (hcancelled : m.shared.cancelled = true → a.shared.cancelled = true)
    (hstopped : a.shared.cancelled = true → a.shared.stopped = true)
    (hself : Standing a.shared.cancelled n.successors a.next (a.shared.view place).isSome
      (p.waits owed place) (owed place)) : Control p owed m' := by
  have hother : ∀ q, q ≠ place → m'.phase? q = m.phase? q := fun q hq =>
    hadv.phase?_other q hq (by simp [hspawned])
  have hlt := Plan.lt_size_of_getElem? hadv.node
  refine ⟨hadv.nodup, ?_, ?_, ?_, ?_, ?_⟩
  · intro q hq
    rw [hother q (by omega)]
    exact h.outside q hq
  · rw [hadv.shared_eq, hlength]
    exact h.length_slots
  · rw [hadv.shared_eq, hcounters]
    exact h.counter_eq
  · intro q nq hq
    rw [hadv.shared_eq]
    by_cases heq : q = place
    · subst heq
      obtain rfl : nq = n := Option.some.inj (hq.symm.trans hadv.node)
      rw [hadv.phase?_self]
      exact hself
    · rw [hother q heq, hview q heq]
      exact (h.standing q nq hq).mono hcancelled
  · rw [hadv.shared_eq]
    exact hstopped

/-- A task that counts down an edge. -/
lemma advance_release {next : ℕ} {rest : List ℕ} (hp : p.Linked) (h : Control p owed m)
    (hadv : Advances env token p m m' place n (.releasing (next :: rest))
      { shared := { m.shared with counters := m.shared.counters.modify next (· - 1) }
        next := some (.releasing rest)
        spawned := if m.shared.counters[next]? = some 1 then some next else none }) :
    Control p (Function.update owed place rest) m' := by
  have hplace := Plan.lt_size_of_getElem? hadv.node
  have hstanding := h.standing place n hadv.node
  rw [hadv.task] at hstanding
  obtain ⟨hstored, hcount, howed⟩ := hstanding.of_releasing
  have hsuffix : next :: rest <:+ n.successors := howed ▸ hstanding.owed_suffix
  have hnext := hp.forward hadv.node next (hsuffix.subset List.mem_cons_self)
  have hpos : 0 < p.waits owed next := Plan.waits_pos hplace (by simp [howed])
  have hwaits : ∀ v, p.waits (Function.update owed place rest) v =
      if next = v then p.waits owed v - 1 else p.waits owed v := by
    intro v
    rw [Plan.waits_update hplace howed (v := v)]
    by_cases hnv : next = v <;> simp [hnv]
  -- the one place besides `place` at which something happens is `next`
  have hphase : ∀ q, q ≠ place → m'.phase? q =
      if next = q ∧ p.waits owed next = 1 then some .waiting else m.phase? q := by
    intro q hq
    rw [h.counter_eq next hnext.2] at hadv
    by_cases hspawned : next = q ∧ p.waits owed next = 1
    · rw [if_pos hspawned, hadv.phase?_spawned q (by rw [hspawned.2, hspawned.1]; rfl)]
    · rw [if_neg hspawned]
      refine hadv.phase?_other q hq ?_
      simpa [and_comm] using hspawned
  refine ⟨hadv.nodup, ?_, ?_, ?_, ?_, ?_⟩
  · intro q hq
    rw [hphase q (by omega), if_neg (by omega)]
    exact h.outside q hq
  · rw [hadv.shared_eq]
    exact h.length_slots
  · intro v hv
    rw [hadv.shared_eq]
    simp only [List.getElem?_modify, h.counter_eq v hv, hwaits v]
    by_cases hnv : next = v <;> simp [hnv]
  · intro q nq hq
    rw [hadv.shared_eq]
    show Standing m.shared.cancelled nq.successors (m'.phase? q) (m.shared.view q).isSome _ _
    rw [hwaits q]
    by_cases heq : q = place
    · subst heq
      obtain rfl : nq = n := Option.some.inj (hq.symm.trans hadv.node)
      have hne : next ≠ q := by omega
      rw [hadv.phase?_self, hstored, Function.update_self, if_neg hne, hcount]
      exact .releasing ((List.suffix_cons next rest).trans hsuffix)
    · rw [Function.update_of_ne heq]
      by_cases hqn : next = q
      · subst hqn
        rw [if_pos rfl]
        exact (h.standing next nq hq).count_down hpos (by simpa using hphase next heq)
      · rw [hphase q heq, if_neg hqn, if_neg (fun hspawned => hqn hspawned.1)]
        exact h.standing q nq hq
  · rw [hadv.shared_eq]
    exact h.stopped_of_cancelled

/-- Every step keeps the tasks, the stored outputs and the counters in agreement. -/
lemma advance (hp : p.Linked) (h : Control p owed m)
    (hadv : Advances env token p m m' place n phase a) : ∃ owed', Control p owed' m' := by
  have hmove := hadv.move
  have hstanding := h.standing place n hadv.node
  rw [hadv.task] at hstanding
  cases hmove with
  | skip hstopped =>
    obtain ⟨hstored, hcount, howed⟩ := hstanding.of_working rfl
    refine ⟨owed, h.advance_of_counters hadv rfl rfl (fun _ _ => rfl) rfl (fun _ => rfl)
      (fun _ => hstopped) ?_⟩
    show Standing true n.successors none (m.shared.view place).isSome _ _
    rw [hstored, hcount, howed]
    exact .skipped rfl
  | @work phase phase' s' hphase hphase' hslots hcounters _ hcancelled hstopped =>
    obtain ⟨hstored, hcount, howed⟩ :=
      hstanding.of_working (Phase.isReleasing_of_not_isSettled hphase)
    have hview : s'.view = m.shared.view := by unfold Shared.view; rw [hslots]
    refine ⟨owed, h.advance_of_counters hadv rfl hcounters (fun q _ => congrFun hview q)
      (congrArg List.length hslots) (fun hc => hcancelled.trans hc)
      (fun hc => hstopped (h.stopped_of_cancelled (hcancelled.symm.trans hc))) ?_⟩
    show Standing s'.cancelled n.successors (some phase') (s'.view place).isSome _ _
    rw [hview, hstored, hcount, howed]
    exact .working hphase'
  | record fault =>
    obtain ⟨hstored, hcount, howed⟩ := hstanding.of_working rfl
    refine ⟨owed, h.advance_of_counters hadv rfl rfl (fun _ _ => rfl) rfl id
      h.stopped_of_cancelled ?_⟩
    show Standing m.shared.cancelled n.successors (some (.storing n.nulls))
      (m.shared.view place).isSome _ _
    rw [hstored, hcount, howed]
    exact .working rfl
  | store outputs =>
    obtain ⟨-, hcount, howed⟩ := hstanding.of_working rfl
    refine ⟨owed, h.advance_of_counters hadv rfl rfl (fun q hq => ?_) (List.length_set ..) id
      h.stopped_of_cancelled ?_⟩
    · simp only [Shared.view, Advance.on, List.getElem?_set_ne (Ne.symm hq)]
    · have hlt : place < m.shared.slots.length := by
        rw [h.length_slots]
        exact Plan.lt_size_of_getElem? hadv.node
      simp only [Shared.view, Advance.on, List.getElem?_set_self hlt, Option.join_some,
        Option.isSome_some, hcount, howed]
      exact .releasing List.suffix_rfl
  | finish =>
    obtain ⟨hstored, hcount, howed⟩ := hstanding.of_releasing
    refine ⟨owed, h.advance_of_counters hadv rfl rfl (fun _ _ => rfl) rfl id
      h.stopped_of_cancelled ?_⟩
    show Standing m.shared.cancelled n.successors none (m.shared.view place).isSome _ _
    rw [hstored, hcount, howed]
    exact .done
  | release next rest => exact ⟨_, advance_release hp h hadv⟩

/-- A step of a task is one at a place of its own. -/
lemma advances_step (h : Control p owed m) {i : ℕ} (ht : m.tasks[i]? = some ⟨place, phase⟩) :
    ∃ n, Advances env token p m (m.step env token p i) place n phase
      (p.advance env token m.shared place n phase) :=
  Machine.advances_step ht h.places_nodup h.place_lt fun _ hq => h.phase?_of_counter hq

/-- Every step of a run is a step of a task. -/
lemma exists_advances (h : Control p owed m) (hs : Step env token p m m') :
    ∃ place n phase a, Advances env token p m m' place n phase a := by
  obtain ⟨i, place, phase, ht, rfl⟩ := hs.exists_index
  obtain ⟨n, hadv⟩ := h.advances_step ht
  exact ⟨place, n, phase, _, hadv⟩

end Control

end Dataflow

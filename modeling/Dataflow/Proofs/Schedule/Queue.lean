import Dataflow.Proofs.Graph.Position

/-!
# The ready queue

What the counts and the states of a ready queue mean, whatever is taken from it and completed
in whatever order: the count of a node is the number of edges into it from nodes that are not
processed, a node is unvisited as long as this number is positive, and no node is queued twice.
Taking a node and completing a ready one keep this (`Sound.pop?`, `Sound.complete`).
-/

namespace Dataflow

namespace ReadyQueue

variable {q : ReadyQueue} {taken : List ℕ} {n v : ℕ}

/-- The number of edges into a node from nodes that are not processed. -/
def pending (q : ReadyQueue) (v : ℕ) : ℕ :=
  q.deps.edges.countP fun e => e.2 = v ∧ q.states[e.1]? ≠ some .processed

/-- A ready queue that tells the truth, after the nodes of `taken` were taken from it. -/
structure Sound (taken : List ℕ) (q : ReadyQueue) : Prop where
  edges_lt : ∀ e ∈ q.deps.edges, e.1 < q.deps.size ∧ e.2 < q.deps.size
  length_states : q.states.length = q.deps.size
  remaining_eq : ∀ v < q.deps.size, q.remaining[v]? = some (q.pending v)
  unvisited_iff : ∀ v < q.deps.size, q.states[v]? = some .unvisited ↔ 0 < q.pending v
  seen_lt : ∀ v ∈ taken ++ q.queue, v < q.deps.size
  seen_visited : ∀ v ∈ taken ++ q.queue, q.states[v]? ≠ some .unvisited
  seen_nodup : (taken ++ q.queue).Nodup

/-! ## The start -/

@[simp] lemma start_deps (d : Dependencies) : (start d).deps = d := rfl

lemma states_start {d : Dependencies} (hv : v < d.size) :
    (start d).states[v]? = some (if d.inDegree v = 0 then .ready else .unvisited) := by
  simp [start, hv]

lemma states_start_ne_processed (d : Dependencies) (v : ℕ) :
    (start d).states[v]? ≠ some .processed := by
  intro h
  have hv : v < d.size := by
    have hlt := (List.getElem?_eq_some_iff.1 h).1
    simpa [start] using hlt
  rw [states_start hv] at h
  split at h <;> simp at h

lemma pending_start (d : Dependencies) (v : ℕ) : (start d).pending v = d.inDegree v := by
  simp only [pending, Dependencies.inDegree, start_deps]
  refine List.countP_congr fun e _ => ?_
  simp [states_start_ne_processed]

lemma mem_queue_start {d : Dependencies} :
    v ∈ (start d).queue ↔ v < d.size ∧ d.inDegree v = 0 := by
  simp [start]

lemma sound_start {d : Dependencies} (hd : ∀ e ∈ d.edges, e.1 < d.size ∧ e.2 < d.size) :
    (start d).Sound [] where
  edges_lt := hd
  length_states := by simp [start]
  remaining_eq := by
    intro v hv
    rw [start_deps] at hv
    rw [pending_start]
    simp [start, hv]
  unvisited_iff := by
    intro v hv
    rw [pending_start, states_start (start_deps d ▸ hv)]
    split <;> simp <;> omega
  seen_lt := by
    intro v hv
    exact (mem_queue_start.1 hv).1
  seen_visited := by
    intro v hv
    obtain ⟨hlt, hzero⟩ := mem_queue_start.1 hv
    rw [states_start hlt, if_pos hzero]
    simp
  seen_nodup := by
    rw [List.nil_append]
    exact List.Nodup.filter _ List.nodup_range

/-! ## Taking a node -/

lemma pop?_eq_some_iff {q' : ReadyQueue} :
    q.pop? = some (v, q') ↔ q.queue = v :: q'.queue ∧ q' = { q with queue := q'.queue } := by
  unfold pop?
  cases hq : q.queue with
  | nil => simp
  | cons w rest =>
    constructor
    · intro h
      simp only [Option.some.injEq, Prod.mk.injEq] at h
      obtain ⟨rfl, rfl⟩ := h
      exact ⟨rfl, rfl⟩
    · rintro ⟨h, h'⟩
      obtain ⟨rfl, hrest⟩ := List.cons.inj h
      rw [h', hrest]

lemma Sound.pop? {q' : ReadyQueue} (h : q.Sound taken) (hpop : q.pop? = some (v, q')) :
    q'.Sound (taken ++ [v]) := by
  obtain ⟨hqueue, hq'⟩ := pop?_eq_some_iff.1 hpop
  have hseen : (taken ++ [v]) ++ q'.queue = taken ++ q.queue := by
    rw [hqueue, List.append_assoc, List.singleton_append]
  have hdeps : q'.deps = q.deps := by rw [hq']
  have hstates : q'.states = q.states := by rw [hq']
  have hremaining : q'.remaining = q.remaining := by rw [hq']
  have hpending : ∀ w, q'.pending w = q.pending w := by
    intro w
    simp only [pending, hdeps, hstates]
  refine ⟨?_, ?_, ?_, ?_, ?_, ?_, ?_⟩
  · rw [hdeps]; exact h.edges_lt
  · rw [hdeps, hstates]; exact h.length_states
  · intro w hw
    rw [hdeps] at hw
    rw [hremaining, hpending]
    exact h.remaining_eq w hw
  · intro w hw
    rw [hdeps] at hw
    rw [hstates, hpending]
    exact h.unvisited_iff w hw
  · rw [hseen, hdeps]; exact h.seen_lt
  · rw [hseen, hstates]; exact h.seen_visited
  · rw [hseen]; exact h.seen_nodup

/-! ## Completing a node -/

/-- The nodes that a completion makes ready. -/
def released (q : ReadyQueue) (n : ℕ) : List ℕ :=
  (List.range q.deps.size).filter fun v =>
    (q.remaining.mapIdx fun v r => r - (q.deps.successors n).count v)[v]? = some 0 ∧
      (q.states.set n .processed)[v]? = some .unvisited

@[simp] lemma complete_deps (q : ReadyQueue) (n : ℕ) : (q.complete n).deps = q.deps := rfl

lemma complete_queue (q : ReadyQueue) (n : ℕ) :
    (q.complete n).queue = q.queue ++ q.released n := rfl

lemma complete_states (q : ReadyQueue) (n v : ℕ) :
    (q.complete n).states[v]? =
      ((q.states.set n .processed)[v]?).map fun s => if v ∈ q.released n then .ready else s := by
  simp only [complete, List.getElem?_mapIdx, released]

lemma complete_remaining (q : ReadyQueue) (n v : ℕ) :
    (q.complete n).remaining[v]? =
      q.remaining[v]?.map fun r => r - (q.deps.successors n).count v := by
  simp only [complete, List.getElem?_mapIdx]

lemma set_processed_eq_unvisited_iff :
    (q.states.set n .processed)[v]? = some .unvisited ↔
      v ≠ n ∧ q.states[v]? = some .unvisited := by
  rw [List.getElem?_set]
  by_cases hvn : n = v
  · subst hvn
    simp only [if_true]
    split <;> simp
  · simp [hvn, Ne.symm hvn]

lemma released_pairwise (q : ReadyQueue) (n : ℕ) : (q.released n).Pairwise (· < ·) :=
  List.pairwise_lt_range.filter _

lemma mem_released (h : q.Sound taken) :
    v ∈ q.released n ↔ v < q.deps.size ∧ q.pending v ≤ (q.deps.successors n).count v ∧
      v ≠ n ∧ q.states[v]? = some .unvisited := by
  simp only [released, List.mem_filter, List.mem_range, decide_eq_true_eq, List.getElem?_mapIdx]
  refine and_congr_right fun hv => ?_
  rw [h.remaining_eq v hv, set_processed_eq_unvisited_iff]
  simp [Nat.sub_eq_zero_iff_le]

/-- A completion adds the completed node to the processed ones, and no other. -/
lemma processed_complete (h : q.Sound taken) (hn : n < q.deps.size) :
    (q.complete n).states[v]? = some .processed ↔ v = n ∨ q.states[v]? = some .processed := by
  have hlen : n < q.states.length := h.length_states ▸ hn
  rw [complete_states]
  by_cases hrel : v ∈ q.released n
  · obtain ⟨-, -, hvn, hunvisited⟩ := (mem_released h).1 hrel
    simp [hrel, hvn, hunvisited, hvn.symm]
  · by_cases hvn : n = v
    · subst hvn
      simp [hrel, hlen]
    · simp [hrel, hvn, Ne.symm hvn]

/-- The edges into a node, split into those from one origin and those from the others. -/
lemma countP_edges {p r : ℕ → Prop} [DecidablePred p] [DecidablePred r] (hn : p n)
    (hp : ∀ u, r u ↔ u ≠ n ∧ p u) (v : ℕ) (edges : List (ℕ × ℕ)) :
    edges.countP (fun e => e.2 = v ∧ p e.1) =
      (edges.filterMap fun e => if e.1 = n then some e.2 else none).count v +
        edges.countP fun e => e.2 = v ∧ r e.1 := by
  induction edges with
  | nil => rfl
  | cons e edges ih =>
    obtain ⟨u, w⟩ := e
    rw [List.countP_cons, List.countP_cons, List.filterMap_cons, ih]
    by_cases hu : u = n
    · -- an edge from `n` is pending before, and a successor of `n`
      subst hu
      have hpu : ¬r u := fun h => ((hp u).1 h).1 rfl
      simp only [hn, hpu, and_true, and_false, decide_false, if_true, List.count_cons,
        Bool.false_eq_true, if_false, decide_eq_true_eq, beq_iff_eq]
      omega
    · -- any other edge counts alike on both sides
      have hpu : r u ↔ p u := by simp [hp u, hu]
      simp only [hu, if_false, hpu]
      omega

/-- The edges from a node that is completed are no longer pending. -/
lemma pending_complete (h : q.Sound taken) (hn : q.states[n]? = some .ready) (v : ℕ) :
    q.pending v = (q.deps.successors n).count v + (q.complete n).pending v := by
  have hlt : n < q.deps.size := h.length_states ▸ (List.getElem?_eq_some_iff.1 hn).1
  refine countP_edges (p := fun u => q.states[u]? ≠ some .processed)
    (r := fun u => (q.complete n).states[u]? ≠ some .processed) ?_ ?_ v q.deps.edges
  · rw [hn]
    simp
  · intro u
    rw [Ne, processed_complete h hlt, not_or]

lemma Sound.pending_eq_zero (h : q.Sound taken) (hv : v < q.deps.size)
    (hvisited : q.states[v]? ≠ some .unvisited) : q.pending v = 0 := by
  have hpos := mt (h.unvisited_iff v hv).2 hvisited
  omega

/-- A completed node is processed, a released one ready, and the others stay as they are. -/
lemma states_complete (h : q.Sound taken) (hn : q.states[n]? = some .ready) :
    (q.complete n).states[v]? =
      if v = n then some .processed
      else if v ∈ q.released n then some .ready else q.states[v]? := by
  have hlen : n < q.states.length := (List.getElem?_eq_some_iff.1 hn).1
  rw [complete_states]
  by_cases hvn : v = n
  · subst hvn
    have hrel : v ∉ q.released v := fun hmem => ((mem_released h).1 hmem).2.2.1 rfl
    simp [hrel, hlen]
  · rw [List.getElem?_set_ne (Ne.symm hvn), if_neg hvn]
    by_cases hrel : v ∈ q.released n
    · simp [hrel, ((mem_released h).1 hrel).2.2.2]
    · simp [hrel]

/-- Completing a ready node keeps a queue sound. -/
lemma Sound.complete (h : q.Sound taken) (hn : q.states[n]? = some .ready) :
    (q.complete n).Sound taken := by
  have hlt : n < q.deps.size := h.length_states ▸ (List.getElem?_eq_some_iff.1 hn).1
  -- what is released was unvisited, so it is queued for the first time
  have hnew : ∀ v ∈ q.released n, v ∉ taken ++ q.queue := by
    intro v hv hmem
    exact h.seen_visited v hmem ((mem_released h).1 hv).2.2.2
  have hseen : taken ++ (q.complete n).queue = (taken ++ q.queue) ++ q.released n := by
    rw [complete_queue, List.append_assoc]
  refine ⟨h.edges_lt, ?_, ?_, ?_, ?_, ?_, ?_⟩
  · simp [ReadyQueue.complete, h.length_states]
  · intro v hv
    rw [complete_remaining, h.remaining_eq v hv, pending_complete h hn v]
    simp
  · intro v hv
    have hpending := pending_complete h hn v
    rw [states_complete h hn]
    by_cases hvn : v = n
    · subst hvn
      have hzero := h.pending_eq_zero hlt (by rw [hn]; simp)
      simp
      omega
    · rw [if_neg hvn]
      by_cases hrel : v ∈ q.released n
      · have hle := ((mem_released h).1 hrel).2.1
        simp [hrel]
        omega
      · -- a node that is not released keeps a pending edge if it had one
        rw [if_neg hrel, h.unvisited_iff v hv]
        have hnot : ¬(q.pending v ≤ (q.deps.successors n).count v ∧ 0 < q.pending v) := by
          rintro ⟨hle, hpos⟩
          exact hrel ((mem_released h).2 ⟨hv, hle, hvn, (h.unvisited_iff v hv).2 hpos⟩)
        omega
  · rw [hseen]
    intro v hv
    rcases List.mem_append.1 hv with hv | hv
    · exact h.seen_lt v hv
    · exact ((mem_released h).1 hv).1
  · rw [hseen]
    intro v hv
    rw [states_complete h hn]
    rcases List.mem_append.1 hv with hv | hv
    · have hrel : v ∉ q.released n := fun hmem => hnew v hmem hv
      rw [if_neg hrel]
      split
      · simp
      · exact h.seen_visited v hv
    · rw [if_pos hv]
      split <;> simp
  · rw [hseen, List.nodup_append]
    refine ⟨h.seen_nodup, List.Nodup.filter _ List.nodup_range, ?_⟩
    rintro v hv w hw rfl
    exact hnew v hw hv

end ReadyQueue

end Dataflow

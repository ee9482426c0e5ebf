import Dataflow.Proofs.Schedule.Order

/-!
# Driving the ready queue by hand

Whoever drives a ready queue may take and complete nodes in any order: complete a node that is
still in the queue, take several before one is completed, or never complete some of them.  The
one condition is that a node is ready when it is completed.  A run is a list of such calls
(`Drive.after`), and what the queue promises holds at the end of each of them
(`Graph.drive_sound`).

A completion goes through the edges of its node one by one.  Each edge takes one off the count of
its target, and what this comes to after some of the edges is an invariant of the loop
(`Release.After`).  It shows that no count is taken below zero, and that the loop does what
`ReadyQueue.complete` says in one step (`ReadyQueue.Sound.complete?`).
-/

namespace Dataflow

/-! ## One edge at a time -/

/-- A completion that is under way, with the nodes that it released so far. -/
structure Release where
  remaining : List ℕ
  states : List NodeState
  released : List ℕ

namespace Release

/-- Takes an edge off the count of its target and releases the target if no other edge is left.
There is no result if the count is zero. -/
def edge (p : Release) (v : ℕ) : Option Release :=
  match p.remaining[v]? with
  | none | some 0 => none
  | some (r + 1) =>
    let remaining := p.remaining.set v r
    if r = 0 ∧ p.states[v]? = some .unvisited then
      some ⟨remaining, p.states.set v .ready, p.released ++ [v]⟩
    else some { p with remaining }

/-- What a completion that starts with `p` comes to after the edges to the nodes of `l`. -/
structure After (p : Release) (l : List ℕ) (p' : Release) : Prop where
  remaining_eq : ∀ v, p'.remaining[v]? = p.remaining[v]?.map fun r => r - l.count v
  states_eq : ∀ v, p'.states[v]? = if v ∈ p'.released then some .ready else p.states[v]?
  mem_released : ∀ v, v ∈ p'.released ↔
    v ∈ l ∧ p.remaining[v]? = some (l.count v) ∧ p.states[v]? = some .unvisited
  released_nodup : p'.released.Nodup

variable {p p' : Release} {l : List ℕ} {v : ℕ}

lemma after_nil (h : p.released = []) : p.After [] p where
  remaining_eq := by simp
  states_eq := by simp [h]
  mem_released := by simp [h]
  released_nodup := by simp [h]

/-- A node to which edges are left has not been released. -/
lemma After.not_mem_released {r : ℕ} (h : p.After l p') (hr : p.remaining[v]? = some r)
    (hlt : l.count v < r) : v ∉ p'.released := by
  intro hmem
  have heq := ((h.mem_released v).1 hmem).2.1
  have hcount : r = l.count v := Option.some.inj (hr.symm.trans heq)
  omega

lemma count_append_singleton_of_ne {w : ℕ} (hw : w ≠ v) : (l ++ [v]).count w = l.count w := by
  rw [List.count_append, List.count_singleton]
  simp [Ne.symm hw]

/-- The counts after one more edge. -/
lemma After.remaining_set {r k : ℕ} (h : p.After l p') (hr : p.remaining[v]? = some r)
    (hk : r = l.count v + (k + 1)) (w : ℕ) :
    (p'.remaining.set v k)[w]? = p.remaining[w]?.map fun r => r - (l ++ [v]).count w := by
  by_cases hw : w = v
  · subst hw
    have hcount : p'.remaining[w]? = some (r - l.count w) := by rw [h.remaining_eq, hr]; rfl
    rw [List.getElem?_set_self (List.getElem?_eq_some_iff.1 hcount).1, hr, Option.map_some,
      List.count_append, List.count_singleton_self]
    congr 1
    omega
  · rw [List.getElem?_set_ne (Ne.symm hw), h.remaining_eq, count_append_singleton_of_ne hw]

/-- One more edge does not release any other node than its target. -/
lemma After.mem_released_append {w : ℕ} (h : p.After l p') (hw : w ≠ v) :
    w ∈ p'.released ↔ w ∈ l ++ [v] ∧ p.remaining[w]? = some ((l ++ [v]).count w) ∧
      p.states[w]? = some .unvisited := by
  rw [h.mem_released, count_append_singleton_of_ne hw, List.mem_append, List.mem_singleton,
    or_iff_left hw]

/-- The last edge to an unvisited node releases it. -/
lemma After.release (h : p.After l p') (hr : p.remaining[v]? = some (l.count v + 1))
    (hstate : p'.states[v]? = some .unvisited) :
    p.After (l ++ [v]) ⟨p'.remaining.set v 0, p'.states.set v .ready, p'.released ++ [v]⟩ := by
  have hnot : v ∉ p'.released := h.not_mem_released hr (by omega)
  refine ⟨h.remaining_set hr rfl, fun w => ?_, fun w => ?_, ?_⟩
  · by_cases hw : w = v
    · subst hw
      simp [(List.getElem?_eq_some_iff.1 hstate).1]
    · simp [List.getElem?_set_ne (Ne.symm hw), h.states_eq, hw]
  · by_cases hw : w = v
    · subst hw
      rw [h.states_eq, if_neg hnot] at hstate
      simp [hr, hstate]
    · rw [← h.mem_released_append hw]
      simp [hw]
  · rw [List.nodup_append]
    refine ⟨h.released_nodup, List.nodup_singleton v, ?_⟩
    rintro a ha b hb rfl
    exact hnot (List.mem_singleton.1 hb ▸ ha)

/-- Any other edge only lowers a count. -/
lemma After.lower {k : ℕ} (h : p.After l p')
    (hr : p.remaining[v]? = some (l.count v + (k + 1)))
    (hmore : ¬(k = 0 ∧ p'.states[v]? = some .unvisited)) :
    p.After (l ++ [v]) { p' with remaining := p'.remaining.set v k } := by
  have hnot : v ∉ p'.released := h.not_mem_released hr (by omega)
  refine ⟨h.remaining_set hr rfl, h.states_eq, fun w => ?_, h.released_nodup⟩
  by_cases hw : w = v
  · subst hw
    refine iff_of_false hnot ?_
    rintro ⟨-, heq, hunvisited⟩
    rw [hr, Option.some.injEq, List.count_append, List.count_singleton_self] at heq
    refine hmore ⟨by omega, ?_⟩
    rw [h.states_eq, if_neg hnot, hunvisited]
  · exact h.mem_released_append hw

/-- As long as the count of the target allows for one more edge, taking it off succeeds. -/
lemma After.edge {r : ℕ} (h : p.After l p') (hr : p.remaining[v]? = some r)
    (hlt : l.count v < r) : ∃ p'', p'.edge v = some p'' ∧ p.After (l ++ [v]) p'' := by
  obtain ⟨k, rfl⟩ : ∃ k, r = l.count v + (k + 1) := ⟨r - l.count v - 1, by omega⟩
  have hcount : p'.remaining[v]? = some (k + 1) := by simp [h.remaining_eq, hr]
  by_cases hlast : k = 0 ∧ p'.states[v]? = some .unvisited
  · obtain ⟨rfl, hstate⟩ := hlast
    exact ⟨_, by simp [Release.edge, hcount, hstate], h.release hr hstate⟩
  · exact ⟨_, by simp only [Release.edge, hcount, if_neg hlast], h.lower hr hlast⟩

/-- If each count allows for all edges to its node, they are all taken off. -/
lemma exists_after (hp : p.released = [])
    (hl : ∀ v ∈ l, ∃ r, p.remaining[v]? = some r ∧ l.count v ≤ r) :
    ∃ p', l.foldlM Release.edge p = some p' ∧ p.After l p' := by
  -- edge after edge, with those in front of it done
  suffices hprefix : ∀ done, done <+: l →
      ∃ p', done.foldlM Release.edge p = some p' ∧ p.After done p' from hprefix l List.prefix_rfl
  intro done
  induction done using List.reverseRecOn with
  | nil => exact fun _ => ⟨p, rfl, after_nil hp⟩
  | append_singleton done v ih =>
    intro hdone
    obtain ⟨p', hp', hafter⟩ := ih ((List.prefix_append done [v]).trans hdone)
    obtain ⟨r, hr, hle⟩ := hl v (hdone.subset (by simp))
    have hlt : done.count v < r := by
      have hcount := hdone.sublist.count_le v
      rw [List.count_append, List.count_singleton_self] at hcount
      omega
    obtain ⟨p'', hedge, hafter'⟩ := hafter.edge hr hlt
    refine ⟨p'', ?_, hafter'⟩
    rw [List.foldlM_append, hp']
    simp [hedge]

end Release

namespace ReadyQueue

/-- The completion of a ready node, edge after edge.  There is no result for a node that is not
ready, and none if a count would fall below zero. -/
def complete? (q : ReadyQueue) (node : ℕ) : Option ReadyQueue :=
  if q.state? node = some .ready then
    let start := ⟨q.remaining, q.states.set node .processed, []⟩
    ((q.deps.successors node).foldlM Release.edge start).map fun p =>
      { q with
        remaining := p.remaining
        states := p.states
        queue := q.queue ++ p.released.mergeSort }
  else none

variable {q q' : ReadyQueue} {taken : List ℕ} {n v : ℕ}

lemma mem_successors {d : Dependencies} : v ∈ d.successors n ↔ (n, v) ∈ d.edges := by
  rw [Dependencies.successors, List.mem_filterMap]
  constructor
  · rintro ⟨⟨a, b⟩, he, h⟩
    split_ifs at h with ha
    obtain rfl : b = v := Option.some.inj h
    obtain rfl : a = n := ha
    exact he
  · intro he
    exact ⟨(n, v), he, if_pos rfl⟩

/-- The edges of a node that is completed are all pending before. -/
lemma Sound.count_le (h : q.Sound taken) (hn : q.states[n]? = some .ready)
    (hv : v ∈ q.deps.successors n) :
    ∃ r, q.remaining[v]? = some r ∧ (q.deps.successors n).count v ≤ r := by
  refine ⟨q.pending v, h.remaining_eq v (h.edges_lt _ (mem_successors.1 hv)).2, ?_⟩
  have hpending := pending_complete h hn v
  omega

/-- A node is released by the last of its edges if it has no other ones that are pending. -/
lemma Sound.mem_released_after {p : Release} (h : q.Sound taken)
    (hn : q.states[n]? = some .ready)
    (hp : Release.After ⟨q.remaining, q.states.set n .processed, []⟩ (q.deps.successors n) p) :
    v ∈ p.released ↔ v ∈ q.released n := by
  rw [hp.mem_released, mem_released h, set_processed_eq_unvisited_iff]
  constructor
  · rintro ⟨hmem, hcount, hvn, hunvisited⟩
    have hv := (h.edges_lt _ (mem_successors.1 hmem)).2
    rw [h.remaining_eq v hv] at hcount
    exact ⟨hv, (Option.some.inj hcount).le, hvn, hunvisited⟩
  · rintro ⟨hv, hle, hvn, hunvisited⟩
    have hpending := pending_complete h hn v
    have hpos := (h.unvisited_iff v hv).1 hunvisited
    refine ⟨List.count_pos_iff.1 (by omega), ?_, hvn, hunvisited⟩
    rw [h.remaining_eq v hv]
    exact congrArg some (by omega)

/-- **Edge after edge, a completion does what it does at once**, and no count falls below zero. -/
lemma Sound.complete? (h : q.Sound taken) (hn : q.states[n]? = some .ready) :
    q.complete? n = some (q.complete n) := by
  obtain ⟨p, hp, hafter⟩ := Release.exists_after
    (p := ⟨q.remaining, q.states.set n .processed, []⟩) rfl fun v hv => h.count_le hn hv
  have hreleased : ∀ v, v ∈ p.released ↔ v ∈ q.released n :=
    fun v => h.mem_released_after hn hafter
  have hremaining : p.remaining = (q.complete n).remaining := by
    refine List.ext_getElem? fun v => ?_
    rw [hafter.remaining_eq, complete_remaining]
  have hstates : p.states = (q.complete n).states := by
    refine List.ext_getElem? fun v => ?_
    rw [hafter.states_eq, complete_states]
    by_cases hv : v ∈ q.released n
    · have hunvisited := ((hafter.mem_released v).1 ((hreleased v).2 hv)).2.2
      rw [if_pos ((hreleased v).2 hv), hunvisited, Option.map_some, if_pos hv]
    · rw [if_neg (mt (hreleased v).1 hv)]
      simp [hv]
  have hqueue : p.released.mergeSort = q.released n := by
    have hsorted := released_pairwise q n
    refine mergeSort_eq_of_perm ?_ hsorted
    exact (List.perm_ext_iff_of_nodup hafter.released_nodup
      (hsorted.imp fun hab => hab.ne)).2 hreleased
  simp only [ReadyQueue.complete?, state?, if_pos hn, hp, Option.map_some, hremaining, hstates,
    hqueue, ← complete_queue]
  rfl

end ReadyQueue

/-! ## Drivers -/

/-- The state that a node moves on to. -/
def NodeState.next? : NodeState → Option NodeState
  | unvisited => some ready
  | ready => some processed
  | processed => none

/-- What a driver asks of a ready queue. -/
inductive ReadyQueue.Call where
  | pop
  | complete (node : ℕ)

/-- A ready queue in use, with the nodes that joined it and those that were taken from it, each
in their order. -/
structure Drive where
  queue : ReadyQueue
  entered : List ℕ
  taken : List ℕ

namespace Drive

def start (deps : Dependencies) : Drive := ⟨.start deps, (ReadyQueue.start deps).queue, []⟩

/-- What a call leads to.  Only a ready node may be completed, whether it was taken or not. -/
def after (d : Drive) : ReadyQueue.Call → Option Drive
  | .pop =>
    match d.queue.pop? with
    | none => some d
    | some (v, queue) => some { d with queue, taken := d.taken ++ [v] }
  | .complete n =>
    if d.queue.state? n = some .ready then
      let queue := d.queue.complete n
      some { d with queue, entered := d.entered ++ queue.queue.drop d.queue.queue.length }
    else none

/-- What every call keeps. -/
structure Kept (deps : Dependencies) (d : Drive) : Prop where
  deps_eq : d.queue.deps = deps
  sound : d.queue.Sound d.taken
  entered_eq : d.entered = d.taken ++ d.queue.queue

variable {deps : Dependencies} {d d' : Drive} {call : ReadyQueue.Call}
  {calls : List ReadyQueue.Call} {n v : ℕ}

lemma after_pop_eq_some_iff : d.after .pop = some d' ↔
    (d.queue.pop? = none ∧ d' = d) ∨
      ∃ v q, d.queue.pop? = some (v, q) ∧ d' = { d with queue := q, taken := d.taken ++ [v] } := by
  cases hpop : d.queue.pop? with
  | none => simp [after, hpop, eq_comm]
  | some step =>
    obtain ⟨w, q⟩ := step
    simp [after, hpop, eq_comm]

lemma after_complete_eq_some_iff : d.after (.complete n) = some d' ↔
    d.queue.state? n = some .ready ∧
      d' = ⟨d.queue.complete n, d.entered ++ d.queue.released n, d.taken⟩ := by
  simp [after, ReadyQueue.complete_queue, eq_comm]

lemma kept_start (h : ∀ e ∈ deps.edges, e.1 < deps.size ∧ e.2 < deps.size) :
    (start deps).Kept deps where
  deps_eq := rfl
  sound := ReadyQueue.sound_start h
  entered_eq := rfl

lemma Kept.after (h : d.Kept deps) (hcall : d.after call = some d') : d'.Kept deps := by
  cases call with
  | pop =>
    obtain ⟨-, rfl⟩ | ⟨v, q, hpop, rfl⟩ := after_pop_eq_some_iff.1 hcall
    · exact h
    · obtain ⟨hqueue, hq⟩ := ReadyQueue.pop?_eq_some_iff.1 hpop
      refine ⟨?_, h.sound.pop? hpop, ?_⟩
      · rw [← h.deps_eq, hq]
      · simp [h.entered_eq, hqueue]
  | complete n =>
    obtain ⟨hn, rfl⟩ := after_complete_eq_some_iff.1 hcall
    refine ⟨h.deps_eq, h.sound.complete hn, ?_⟩
    simp [h.entered_eq, ReadyQueue.complete_queue]

lemma Kept.run (h : d.Kept deps) (hcalls : calls.foldlM Drive.after d = some d') :
    d'.Kept deps := by
  induction calls generalizing d with
  | nil => exact Option.some.inj hcalls ▸ h
  | cons call calls ih =>
    obtain ⟨d₁, hcall, hrest⟩ := Option.bind_eq_some_iff.1 hcalls
    exact ih (h.after hcall) hrest

/-- A call moves each node one state on or not at all. -/
lemma Kept.state_after (h : d.Kept deps) (hcall : d.after call = some d') (hv : v < deps.size) :
    ∃ s s', d.queue.state? v = some s ∧ d'.queue.state? v = some s' ∧
      (s' = s ∨ s.next? = some s') := by
  have hlen : v < d.queue.states.length := by rwa [h.sound.length_states, h.deps_eq]
  obtain ⟨s, hs⟩ : ∃ s, d.queue.state? v = some s := ⟨_, List.getElem?_eq_getElem hlen⟩
  cases call with
  | pop =>
    refine ⟨s, s, hs, ?_, .inl rfl⟩
    obtain ⟨-, rfl⟩ | ⟨w, q, hpop, rfl⟩ := after_pop_eq_some_iff.1 hcall
    · exact hs
    · rw [(ReadyQueue.pop?_eq_some_iff.1 hpop).2]
      exact hs
  | complete n =>
    obtain ⟨hn, rfl⟩ := after_complete_eq_some_iff.1 hcall
    have hstate : (d.queue.complete n).state? v = _ := ReadyQueue.states_complete h.sound hn
    by_cases hvn : v = n
    · subst hvn
      obtain rfl : s = .ready := Option.some.inj (hs.symm.trans hn)
      exact ⟨.ready, .processed, hs, by rw [hstate, if_pos rfl], .inr rfl⟩
    · by_cases hrel : v ∈ d.queue.released n
      · have hunvisited := ((ReadyQueue.mem_released h.sound).1 hrel).2.2.2
        exact ⟨.unvisited, .ready, hunvisited, by rw [hstate, if_neg hvn, if_pos hrel], .inr rfl⟩
      · exact ⟨s, s, hs, by rw [hstate, if_neg hvn, if_neg hrel]; exact hs, .inl rfl⟩

end Drive

/-! ## Graphs -/

namespace Graph

variable {g : Graph} {q : ReadyQueue} {v : ℕ}

/-- The connections into a node from nodes that are not processed. -/
def awaited (g : Graph) (q : ReadyQueue) (v : ℕ) : List Connection :=
  g.connections.filter fun c =>
    g.position? c.toNode = some v ∧ (g.position? c.fromNode).bind q.state? ≠ some .processed

lemma length_awaited (hdeps : q.deps = g.dependencies) : (g.awaited q v).length = q.pending v := by
  rw [awaited, ← List.countP_eq_length_filter, ReadyQueue.pending, hdeps, dependencies,
    List.countP_filterMap]
  refine List.countP_congr fun c hc => ?_
  obtain ⟨u, w, hu, hw⟩ := exists_positions hc
  have hedge : g.edge? c = some (u, w) := edge?_eq_some_iff.2 ⟨hu, hw⟩
  simp [hedge, hu, hw, ReadyQueue.state?]

/-- **Whatever is taken and completed, in whatever order**, as long as nodes are ready when they
are completed: the count of a node is the number of connections into it from nodes that are not
processed, and a node is unvisited as long as there is one; a completion takes no count below
zero; each call moves a node one state on or not at all; no node joins the queue twice; and the
producers of a node that was taken are processed. -/
theorem drive_sound (g : Graph) {calls : List ReadyQueue.Call} {d : Drive}
    (h : calls.foldlM Drive.after (.start g.dependencies) = some d) :
    (∀ v < g.size, d.queue.remaining[v]? = some (g.awaited d.queue v).length ∧
        (d.queue.state? v = some .unvisited ↔ 0 < (g.awaited d.queue v).length)) ∧
      (∀ n, d.queue.state? n = some .ready →
        d.queue.complete? n = some (d.queue.complete n)) ∧
      (∀ call d', d.after call = some d' → ∀ v < g.size, ∃ s s',
        d.queue.state? v = some s ∧ d'.queue.state? v = some s' ∧
          (s' = s ∨ s.next? = some s')) ∧
      d.entered = d.taken ++ d.queue.queue ∧ d.entered.Nodup ∧
      ∀ v ∈ d.taken, ∀ c ∈ g.connections, g.position? c.toNode = some v →
        ∃ u, g.position? c.fromNode = some u ∧ d.queue.state? u = some .processed := by
  have hkept : d.Kept g.dependencies := (Drive.kept_start fun e he => edges_lt he).run h
  have hsize : d.queue.deps.size = g.size := congrArg Dependencies.size hkept.deps_eq
  refine ⟨?_, ?_, ?_, hkept.entered_eq, ?_, ?_⟩
  · intro v hv
    rw [length_awaited hkept.deps_eq]
    exact ⟨hkept.sound.remaining_eq v (hsize ▸ hv), hkept.sound.unvisited_iff v (hsize ▸ hv)⟩
  · exact fun n hn => hkept.sound.complete? hn
  · exact fun call d' hcall v hv => hkept.state_after hcall hv
  · rw [hkept.entered_eq]
    exact hkept.sound.seen_nodup
  · intro v hv c hc hto
    obtain ⟨u, w, hu, hw⟩ := exists_positions hc
    obtain rfl : w = v := Option.some.inj (hw.symm.trans hto)
    have hedge : (u, w) ∈ d.queue.deps.edges := by
      rw [hkept.deps_eq]
      exact mem_edges_iff.2 ⟨c, hc, hu, hw⟩
    have hvisited := hkept.sound.seen_visited w (List.mem_append_left _ hv)
    exact ⟨u, hu, hkept.sound.processed_of_edge hedge hvisited⟩

/-- A graph with two connections between the same nodes, a node that waits for itself, and a node
behind the two connections. -/
def selfWaiting : Graph where
  nodes := [
    ⟨"pair", "pair", [], [⟨"out", none⟩], none, none, none⟩,
    ⟨"sum", "add", [⟨"a", none, none⟩, ⟨"b", none, none⟩], [⟨"out", none⟩], none, none, none⟩,
    ⟨"loop", "keep", [⟨"a", none, none⟩, ⟨"b", none, none⟩], [⟨"out", none⟩], none, none, none⟩,
    ⟨"log", "log", [⟨"entry", none, none⟩], [], none, none, none⟩]
  connections := [
    ⟨"pair", "out", "sum", "a"⟩, ⟨"pair", "out", "sum", "b"⟩, ⟨"pair", "out", "loop", "a"⟩,
    ⟨"loop", "out", "loop", "b"⟩, ⟨"sum", "out", "log", "entry"⟩]
  valid := valid_of_fault?_eq_none (by decide)

/-- The first node and then the second one are completed before any node is taken. -/
def eagerCalls : List ReadyQueue.Call := [.complete 0, .complete 1, .pop, .pop, .pop, .pop]

/-- When the queue is empty, the node that waits for itself is left with one connection. -/
theorem drive_sound_selfWaiting : ∃ d,
    eagerCalls.foldlM Drive.after (.start selfWaiting.dependencies) = some d ∧
      d.entered = [0, 1, 3] ∧ d.entered.Nodup ∧ d.taken = [0, 1, 3] ∧
      d.queue.remaining[2]? = some (selfWaiting.awaited d.queue 2).length ∧
      (selfWaiting.awaited d.queue 2).length = 1 ∧ d.queue.state? 2 = some .unvisited ∧
      d.queue.complete? 3 = some (d.queue.complete 3) ∧
      ∃ u, selfWaiting.position? "sum" = some u ∧ d.queue.state? u = some .processed := by
  obtain ⟨d, hd⟩ : ∃ d, eagerCalls.foldlM Drive.after (.start selfWaiting.dependencies) = some d :=
    Option.isSome_iff_exists.1 (by decide)
  obtain ⟨hcounts, hedges, -, -, hnodup, hproducers⟩ := drive_sound selfWaiting hd
  refine ⟨d, hd, ?_⟩
  obtain rfl := Option.some.inj (hd.symm.trans rfl)
  exact ⟨by decide, hnodup, by decide, (hcounts 2 (by decide)).1, by decide, by decide,
    hedges 3 (by decide), hproducers 3 (by decide) ⟨"sum", "out", "log", "entry"⟩ (by decide)
      (by decide)⟩

end Graph

end Dataflow

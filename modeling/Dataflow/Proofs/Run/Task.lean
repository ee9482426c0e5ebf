import Mathlib.Data.List.Nodup
import Mathlib.Logic.Relation
import Dataflow.Proofs.Plan.Links
import Dataflow.Run.Parallel

/-!
# Steps of tasks

A step of a parallel run is a step of one of its tasks.  Seen by the places of the plan, it
changes what the task does next and starts at most one other task (`Machine.advances_step`);
and what it does to the slots and the counters falls into five kinds (`Move`).
-/

namespace Dataflow

/-- Whether a task has stored its outputs and releases its successors. -/
def Phase.isReleasing : Phase → Bool
  | releasing _ => true
  | _ => false

/-- Whether a task knows what its node comes to. -/
def Phase.isSettled : Phase → Bool
  | failing _ | storing _ | releasing _ => true
  | _ => false

lemma Phase.isReleasing_of_not_isSettled {phase : Phase} (h : phase.isSettled = false) :
    phase.isReleasing = false := by
  cases phase with
  | releasing rest => simp [isSettled] at h
  | _ => rfl

/-! ## Kinds of steps -/

@[simp] lemma Advance.check_shared {α : Type} (s : Shared) (next : α → Phase)
    (r : Except NodeFault α) : (check s next r).shared = s := by
  cases r <;> rfl

/-- What a step of a task does to the slots, the counters, the failures and the marks of a
cancelled run. -/
inductive Move (s : Shared) (place : ℕ) (n : PlannedNode) : Phase → Advance → Prop where
  /-- The task finds the token cancelled. -/
  | skip (h : s.stopped = true) :
    Move s place n .waiting (.done { s.note [.skipped n.id] with cancelled := true })
  /-- The task makes its way to the outputs of its node. -/
  | work {phase phase' : Phase} {s' : Shared} (hphase : phase.isSettled = false)
    (hphase' : phase'.isReleasing = false) (hslots : s'.slots = s.slots)
    (hcounters : s'.counters = s.counters) (hfailures : s'.failures = s.failures)
    (hcancelled : s'.cancelled = s.cancelled) (hstopped : s.stopped = true → s'.stopped = true) :
    Move s place n phase (.on s' phase')
  | record (fault : NodeFault) :
    Move s place n (.failing fault)
      (.on { s.note [.failed (n.fault fault)] with
        failures := s.failures ++ [(place, n.fault fault)] } (.storing n.nulls))
  | store (outputs : Outputs) :
    Move s place n (.storing outputs)
      (.on { s with slots := s.slots.set place (some outputs) } (.releasing n.successors))
  | finish : Move s place n (.releasing []) (.done s)
  | release (next : ℕ) (rest : List ℕ) :
    Move s place n (.releasing (next :: rest))
      { shared := { s with counters := s.counters.modify next (· - 1) }
        next := some (.releasing rest)
        spawned := if s.counters[next]? = some 1 then some next else none }

namespace Move

variable {s : Shared} {place : ℕ} {n : PlannedNode}

/-- A check that passes or fails is work. -/
lemma check {α : Type} {phase : Phase} {s' : Shared} {next : α → Phase} {r : Except NodeFault α}
    (hphase : phase.isSettled = false) (hnext : ∀ a, (next a).isReleasing = false)
    (hslots : s'.slots = s.slots) (hcounters : s'.counters = s.counters)
    (hfailures : s'.failures = s.failures) (hcancelled : s'.cancelled = s.cancelled)
    (hstopped : s.stopped = true → s'.stopped = true) :
    Move s place n phase (.check s' next r) := by
  cases r with
  | error fault => exact .work hphase rfl hslots hcounters hfailures hcancelled hstopped
  | ok a => exact .work hphase (hnext a) hslots hcounters hfailures hcancelled hstopped

lemma firstPhase_isReleasing (n : PlannedNode) : n.firstPhase.isReleasing = false := by
  unfold PlannedNode.firstPhase
  split <;> rfl

/-- Every step of a task is of one of the kinds. -/
lemma of_advance (env : Environment) (token : Option CancelToken) (p : Plan) (s : Shared)
    (place : ℕ) (n : PlannedNode) (phase : Phase) :
    Move s place n phase (p.advance env token s place n phase) := by
  cases phase with
  | waiting =>
    rw [Plan.advance]
    split
    · rename_i hstopped
      exact .skip hstopped
    · exact .work rfl (firstPhase_isReleasing n) rfl rfl rfl rfl id
  | reading args rest =>
    cases rest with
    | nil => exact .work rfl rfl rfl rfl rfl rfl id
    | cons b rest => exact check rfl (fun _ => rfl) rfl rfl rfl rfl id
  | resolving args =>
    refine check rfl (fun f => ?_) rfl rfl rfl rfl id
    cases f <;> rfl
  | seeking args source =>
    rw [Plan.advance]
    split
    · exact .work rfl rfl rfl rfl rfl rfl id
    · exact .work rfl rfl rfl rfl rfl rfl id
  | compiling args source => exact check rfl (fun _ => rfl) rfl rfl rfl rfl id
  | keeping args source b => exact .work rfl rfl rfl rfl rfl rfl id
  | calling args b =>
    refine check rfl (fun _ => rfl) rfl rfl rfl rfl fun hstopped => ?_
    have hs : s.stopped = true := hstopped
    simp [hs]
  | failing fault => exact .record fault
  | storing outputs => exact .store outputs
  | releasing rest =>
    cases rest with
    | nil => exact .finish
    | cons next rest => exact .release next rest

lemma stopped_mono {phase : Phase} {a : Advance} (h : Move s place n phase a)
    (hstopped : s.stopped = true) : a.shared.stopped = true := by
  cases h with
  | work _ _ _ _ _ _ hmono => exact hmono hstopped
  | _ => exact hstopped

lemma failures_subset {phase : Phase} {a : Advance} (h : Move s place n phase a) :
    s.failures ⊆ a.shared.failures := by
  cases h with
  | work _ _ _ _ hfailures => exact fun x hx => hfailures ▸ hx
  | record fault => exact List.subset_append_left _ _
  | _ => exact List.Subset.refl _

/-- Only a task with outputs to store changes what is stored, at its own place. -/
lemma view_eq {phase : Phase} {a : Advance} (h : Move s place n phase a)
    (hlt : place < s.slots.length) (q : ℕ) :
    a.shared.view q = s.view q ∨
      (q = place ∧ ∃ outputs, phase = .storing outputs ∧ a.shared.view q = some outputs) := by
  cases h with
  | @work _ _ s' _ _ hslots =>
    left
    show s'.slots[q]?.join = s.slots[q]?.join
    rw [hslots]
  | store outputs =>
    by_cases hq : q = place
    · subst hq
      exact .inr ⟨rfl, outputs, rfl, by simp [Advance.on, Shared.view, hlt]⟩
    · exact .inl (by simp [Advance.on, Shared.view, List.getElem?_set_ne (Ne.symm hq)])
  | _ => exact .inl rfl

lemma view_of_storing {outputs : Outputs} {a : Advance} (h : Move s place n (.storing outputs) a)
    (hlt : place < s.slots.length) : a.shared.view place = some outputs := by
  cases h with
  | work hphase => simp [Phase.isSettled] at hphase
  | store _ => simp [Advance.on, Shared.view, hlt]

/-- Only a task with a fault to record changes the failures. -/
lemma failures_eq {phase : Phase} {a : Advance} (h : Move s place n phase a) :
    a.shared.failures = s.failures ∨
      ∃ fault, phase = .failing fault ∧ a.shared.failures = s.failures ++ [(place, n.fault fault)] ∧
        a.next = some (.storing n.nulls) := by
  cases h with
  | work _ _ _ _ hfailures => exact .inl hfailures
  | record fault => exact .inr ⟨fault, rfl, rfl, rfl⟩
  | _ => exact .inl rfl

/-- A task is spawned for a place that waits for a single edge. -/
lemma counter_of_spawned {phase : Phase} {a : Advance} (h : Move s place n phase a) {q : ℕ}
    (hq : a.spawned = some q) : s.counters[q]? = some 1 := by
  cases h with
  | release next rest =>
    simp only [Option.ite_none_right_eq_some, Option.some.injEq] at hq
    obtain ⟨hone, rfl⟩ := hq
    exact hone
  | _ => simp [Advance.on, Advance.done] at hq

end Move

namespace Machine

variable {env : Environment} {token : Option CancelToken} {p : Plan} {m m' : Machine} {q : ℕ}

/-! ## Lists of tasks -/

section Tasks

variable {before after : List Task} {place : ℕ} {phase : Phase}

/-- What the task for a place does next, if the list has one. -/
def findPhase (tasks : List Task) (q : ℕ) : Option Phase :=
  (tasks.find? fun t => t.place = q).map Task.phase

lemma findPhase_append (l r : List Task) (q : ℕ) :
    findPhase (l ++ r) q = (findPhase l q).or (findPhase r q) := by
  rw [findPhase, List.find?_append]
  simp only [findPhase]
  cases l.find? (fun t => t.place = q) <;> simp

lemma findPhase_cons (t : Task) (l : List Task) (q : ℕ) :
    findPhase (t :: l) q = if t.place = q then some t.phase else findPhase l q := by
  by_cases hq : t.place = q <;> simp [findPhase, hq]

lemma findPhase_eq_none {l : List Task} (h : q ∉ l.map Task.place) : findPhase l q = none := by
  rw [findPhase, Option.map_eq_none_iff, List.find?_eq_none]
  intro t ht
  have hne : t.place ≠ q := fun heq => h (heq ▸ List.mem_map_of_mem ht)
  simpa using hne

/-- The task that took a step, if it goes on. -/
def nextTask (place : ℕ) (next : Option Phase) : List Task :=
  (next.map fun phase => ⟨place, phase⟩).toList

/-- The task that a step spawned, if it did. -/
def spawnedTask (spawned : Option ℕ) : List Task :=
  (spawned.map fun place => ⟨place, .waiting⟩).toList

lemma findPhase_nextTask (next : Option Phase) :
    findPhase (nextTask place next) q = if place = q then next else none := by
  cases next <;> by_cases hq : place = q <;> simp [nextTask, findPhase, hq]

lemma findPhase_spawnedTask (spawned : Option ℕ) :
    findPhase (spawnedTask spawned) q = if spawned = some q then some .waiting else none := by
  cases spawned with
  | none => simp [spawnedTask, findPhase]
  | some place => by_cases hq : place = q <;> simp [spawnedTask, findPhase, hq]

/-- The places stay distinct when a task is replaced, and another one comes in. -/
lemma nodup_replace {next : Option Phase} {spawned : Option ℕ}
    (h : ((before ++ ⟨place, phase⟩ :: after).map Task.place).Nodup)
    (hfresh : ∀ q, spawned = some q → q ∉ (before ++ ⟨place, phase⟩ :: after).map Task.place) :
    ((before ++ nextTask place next ++ spawnedTask spawned ++ after).map Task.place).Nodup := by
  have hnext : ((nextTask place next).map Task.place).Sublist [place] := by
    cases next <;> simp [nextTask]
  have hold : ((before ++ nextTask place next ++ after).map Task.place).Nodup := by
    refine h.sublist ?_
    simp only [List.map_append, List.map_cons, List.append_assoc]
    exact .append_left (.append_right hnext _) _
  cases spawned with
  | none => simpa [spawnedTask] using hold
  | some q =>
    -- with the new place at the front, the other ones are those of the task list without it
    have hperm : ((before ++ nextTask place next ++ spawnedTask (some q) ++ after).map
        Task.place).Perm (q :: (before ++ nextTask place next ++ after).map Task.place) := by
      simp only [spawnedTask, Option.map_some, Option.toList_some, List.append_assoc,
        List.map_append, List.map_cons, List.cons_append, List.nil_append]
      exact (List.perm_middle.append_left _).trans List.perm_middle
    refine hperm.nodup_iff.2 (List.nodup_cons.2 ⟨fun hq => hfresh q rfl ?_, hold⟩)
    simp only [List.map_append, List.map_cons, List.mem_append, List.mem_cons] at hq ⊢
    rcases hq with (hq | hq) | hq
    · exact .inl hq
    · exact .inr (.inl (List.mem_singleton.1 (hnext.subset hq)))
    · exact .inr (.inr hq)

end Tasks

/-! ## Tasks by their places -/

/-- What the task for the node at a place does next, if there is such a task. -/
def phase? (m : Machine) (place : ℕ) : Option Phase := findPhase m.tasks place

lemma phase?_eq_none_iff : m.phase? q = none ↔ ∀ t ∈ m.tasks, t.place ≠ q := by
  simp [phase?, findPhase, List.find?_eq_none]

lemma mem_tasks_of_phase? {phase : Phase} (h : m.phase? q = some phase) :
    ⟨q, phase⟩ ∈ m.tasks := by
  obtain ⟨t, ht, rfl⟩ := Option.map_eq_some_iff.1 h
  have hplace : t.place = q := by simpa using List.find?_some ht
  rw [← hplace]
  exact List.mem_of_find?_eq_some ht

/-- If every task has a place of its own, it is the one that is found there. -/
lemma phase?_eq_some_iff (hnodup : (m.tasks.map Task.place).Nodup) {phase : Phase} :
    m.phase? q = some phase ↔ ⟨q, phase⟩ ∈ m.tasks := by
  refine ⟨mem_tasks_of_phase?, fun hmem => ?_⟩
  obtain ⟨phase', hphase'⟩ : ∃ phase', m.phase? q = some phase' := by
    rw [← Option.ne_none_iff_exists']
    exact fun hnone => phase?_eq_none_iff.1 hnone _ hmem rfl
  have htask := List.inj_on_of_nodup_map hnodup (mem_tasks_of_phase? hphase') hmem rfl
  rw [hphase', (Task.mk.inj htask).2]

/-! ## Steps -/

/-- A step of one of the tasks. -/
def Step (env : Environment) (token : Option CancelToken) (p : Plan) (m m' : Machine) : Prop :=
  ∃ i < m.tasks.length, m' = m.step env token p i

/-- A step of the task at a place, as it is seen from all places. -/
structure Advances (env : Environment) (token : Option CancelToken) (p : Plan) (m m' : Machine)
    (place : ℕ) (n : PlannedNode) (phase : Phase) (a : Advance) : Prop where
  advance_eq : p.advance env token m.shared place n phase = a
  task : m.phase? place = some phase
  node : p.nodes[place]? = some n
  shared_eq : m'.shared = a.shared
  nodup : (m'.tasks.map Task.place).Nodup
  phase?_self : m'.phase? place = a.next
  phase?_fresh : ∀ q, a.spawned = some q → m.phase? q = none
  phase?_spawned : ∀ q, a.spawned = some q → m'.phase? q = some .waiting
  phase?_other : ∀ q, q ≠ place → a.spawned ≠ some q → m'.phase? q = m.phase? q

lemma Advances.move {place : ℕ} {n : PlannedNode} {phase : Phase} {a : Advance}
    (h : Advances env token p m m' place n phase a) : Move m.shared place n phase a :=
  h.advance_eq ▸ Move.of_advance ..

/-- Away from the place of the step, a task goes on unchanged, or is new. -/
lemma Advances.phase?_of_ne {place : ℕ} {n : PlannedNode} {phase : Phase} {a : Advance}
    (h : Advances env token p m m' place n phase a) (hq : q ≠ place) :
    m'.phase? q = m.phase? q ∨ (m.phase? q = none ∧ m'.phase? q = some .waiting) := by
  by_cases hspawned : a.spawned = some q
  · exact .inr ⟨h.phase?_fresh q hspawned, h.phase?_spawned q hspawned⟩
  · exact .inl (h.phase?_other q hq hspawned)

/-- The task at an index is replaced by what comes of it; a task for a place outside the plan is
dropped. -/
lemma exists_split_step (env : Environment) (token : Option CancelToken) (p : Plan) {i place : ℕ}
    {phase : Phase} (ht : m.tasks[i]? = some ⟨place, phase⟩) :
    ∃ before after, m.tasks = before ++ ⟨place, phase⟩ :: after ∧
      ((p.nodes[place]? = none ∧ m.step env token p i = ⟨m.shared, before ++ after⟩) ∨
        ∃ n, p.nodes[place]? = some n ∧
          m.step env token p i = ⟨(p.advance env token m.shared place n phase).shared,
            before ++ nextTask place (p.advance env token m.shared place n phase).next ++
              spawnedTask (p.advance env token m.shared place n phase).spawned ++ after⟩) := by
  refine ⟨m.tasks.take i, m.tasks.drop (i + 1), ?_, ?_⟩
  · rw [(List.getElem?_eq_some_iff.1 ht).2.symm, List.getElem_cons_drop, List.take_append_drop]
  · cases hn : p.nodes[place]? with
    | none => exact .inl ⟨rfl, by simp only [step, ht, hn]⟩
    | some n => exact .inr ⟨n, rfl, by simp only [step, ht, hn]; rfl⟩

lemma Step.exists_index (h : Step env token p m m') :
    ∃ i place phase, m.tasks[i]? = some ⟨place, phase⟩ ∧ m' = m.step env token p i := by
  obtain ⟨i, hi, rfl⟩ := h
  exact ⟨i, _, _, List.getElem?_eq_getElem hi, rfl⟩

/-- The same for a step of some task. -/
lemma Step.exists_split (h : Step env token p m m') :
    ∃ before after place phase, m.tasks = before ++ ⟨place, phase⟩ :: after ∧
      ((p.nodes[place]? = none ∧ m' = ⟨m.shared, before ++ after⟩) ∨
        ∃ n, p.nodes[place]? = some n ∧
          m' = ⟨(p.advance env token m.shared place n phase).shared,
            before ++ nextTask place (p.advance env token m.shared place n phase).next ++
              spawnedTask (p.advance env token m.shared place n phase).spawned ++ after⟩) := by
  obtain ⟨i, place, phase, ht, rfl⟩ := h.exists_index
  obtain ⟨before, after, hsplit⟩ := exists_split_step env token p ht
  exact ⟨before, after, place, phase, hsplit⟩

/-- A step of the task at an index, when every task has a place of its own in the plan, and the
nodes that wait for one more edge have none. -/
lemma advances_step {i place : ℕ} {phase : Phase} (ht : m.tasks[i]? = some ⟨place, phase⟩)
    (hnodup : (m.tasks.map Task.place).Nodup) (hlt : ∀ t ∈ m.tasks, t.place < p.size)
    (hwait : ∀ q, m.shared.counters[q]? = some 1 → m.phase? q = none) :
    ∃ n, Advances env token p m (m.step env token p i) place n phase
      (p.advance env token m.shared place n phase) := by
  obtain ⟨before, after, hsplit, hstep⟩ := exists_split_step env token p ht
  have hplace : place < p.size := hlt ⟨place, phase⟩ (by simp [hsplit])
  obtain ⟨n, hn, heq⟩ := hstep.resolve_left fun hout => by
    obtain ⟨n, hn⟩ := Plan.exists_node hplace
    simp [hn] at hout
  rw [heq]
  refine ⟨n, ?_⟩
  generalize ha : p.advance env token m.shared place n phase = a
  have hmove : Move m.shared place n phase a := ha ▸ Move.of_advance ..
  have hfresh (q : ℕ) (hq : a.spawned = some q) : m.phase? q = none :=
    hwait q (hmove.counter_of_spawned hq)
  have hnot (q : ℕ) (hq : a.spawned = some q) : q ∉ m.tasks.map Task.place := by
    intro hmem
    obtain ⟨t, ht, rfl⟩ := List.mem_map.1 hmem
    exact phase?_eq_none_iff.1 (hfresh _ hq) t ht rfl
  rw [hsplit] at hnodup hnot
  -- no other task has the place of the one that takes the step
  have hother := hnodup
  rw [List.map_append, List.map_cons, List.nodup_middle, List.nodup_cons,
    ← List.map_append] at hother
  have hbefore : findPhase before place = none :=
    findPhase_eq_none fun hmem => hother.1 (List.map_subset _ (List.subset_append_left _ _) hmem)
  have hafter : findPhase after place = none :=
    findPhase_eq_none fun hmem => hother.1 (List.map_subset _ (List.subset_append_right _ _) hmem)
  have hold (q : ℕ) : m.phase? q = (findPhase before q).or
      (if place = q then some phase else findPhase after q) := by
    rw [phase?, hsplit, findPhase_append, findPhase_cons]
  refine ⟨ha, ?_, hn, rfl, nodup_replace hnodup hnot, ?_, hfresh, ?_, ?_⟩
  · rw [hold, hbefore, if_pos rfl, Option.none_or]
  · have hne : a.spawned ≠ some place := fun hspawned => hnot place hspawned (by simp)
    rw [phase?, findPhase_append, findPhase_append, findPhase_append, findPhase_nextTask,
      findPhase_spawnedTask, hbefore, hafter, if_pos rfl, if_neg hne]
    simp
  · intro q hq
    have hmem := hnot q hq
    rw [List.map_append, List.map_cons, List.mem_append, List.mem_cons, not_or, not_or] at hmem
    rw [phase?, findPhase_append, findPhase_append, findPhase_append, findPhase_nextTask,
      findPhase_spawnedTask, findPhase_eq_none hmem.1, if_neg (Ne.symm hmem.2.1), if_pos hq]
    rfl
  · intro q hne hspawned
    rw [hold, phase?, findPhase_append, findPhase_append, findPhase_append, findPhase_nextTask,
      findPhase_spawnedTask, if_neg (Ne.symm hne), if_neg hspawned, if_neg (Ne.symm hne),
      Option.or_none, Option.or_none]

end Machine

end Dataflow

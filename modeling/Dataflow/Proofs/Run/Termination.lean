import Mathlib.Algebra.GroupWithZero.Nat
import Mathlib.Order.WellFounded
import Dataflow.Proofs.Run.Task

/-!
# Parallel runs come to an end

The work that is left in a parallel run is the steps that its tasks can still take, together
with those of the nodes whose counters are not zero yet.  Every step takes away from it, in
whatever state it is taken (`Machine.work_step_lt`), so that no run goes on forever, and the
fuel of `Plan.runParallel` lasts to the end.
-/

namespace Dataflow

/-- The most steps that a task can take from a phase on. -/
def Phase.cost (n : PlannedNode) : Phase → ℕ
  | waiting => n.steps
  | reading _ rest => 9 + rest.length + n.successors.length
  | resolving _ => 8 + n.successors.length
  | seeking .. => 7 + n.successors.length
  | compiling .. => 6 + n.successors.length
  | keeping .. => 5 + n.successors.length
  | calling .. => 4 + n.successors.length
  | failing _ => 3 + n.successors.length
  | storing _ => 2 + n.successors.length
  | releasing rest => 1 + rest.length

/-- The most steps that a task can take; one for a node that is not in the plan is dropped. -/
def Task.cost (p : Plan) (t : Task) : ℕ := p.nodes[t.place]?.elim 1 fun n => t.phase.cost n

/-- The steps of the nodes from a place on whose counters are not zero. -/
def waitingCost (p : Plan) : ℕ → List ℕ → ℕ
  | _, [] => 0
  | v, c :: rest => (if c = 0 then 0 else Task.cost p ⟨v, .waiting⟩) + waitingCost p (v + 1) rest

/-- The steps that are left in a run, at most. -/
def Machine.work (p : Plan) (m : Machine) : ℕ :=
  (m.tasks.map (Task.cost p)).sum + waitingCost p 0 m.shared.counters

section

variable {env : Environment} {token : Option CancelToken} {p : Plan}

/-! ## One task -/

lemma Advance.check_cost_lt {α : Type} {s : Shared} {n : PlannedNode} {next : α → Phase}
    {r : Except NodeFault α} {c : ℕ} (hnext : ∀ a, (next a).cost n < c)
    (hfail : 3 + n.successors.length < c) :
    (Advance.check s next r).next.elim 0 (Phase.cost n) < c := by
  cases r with
  | error fault => exact hfail
  | ok a => exact hnext a

/-- A step of a task leaves it fewer steps. -/
lemma next_cost_lt (env : Environment) (token : Option CancelToken) (p : Plan) (s : Shared)
    (place : ℕ) (n : PlannedNode) (phase : Phase) :
    (p.advance env token s place n phase).next.elim 0 (Phase.cost n) < phase.cost n := by
  cases phase with
  | waiting =>
    rw [Plan.advance, Phase.cost, PlannedNode.steps]
    split
    · simp only [Advance.done, Option.elim_none]
      omega
    · simp only [Advance.on, Option.elim_some, PlannedNode.firstPhase]
      split <;> simp only [Phase.cost] <;> omega
  | reading args rest =>
    cases rest with
    | nil => simp [Plan.advance, Advance.on, Phase.cost]
    | cons b rest =>
      refine Advance.check_cost_lt (fun a => ?_) ?_ <;>
        simp only [Phase.cost, List.length_cons] <;> omega
  | resolving args =>
    refine Advance.check_cost_lt (fun f => ?_) ?_
    · cases f <;> simp [Phase.cost]
    · simp [Phase.cost]
  | seeking args source =>
    rw [Plan.advance]
    split <;> simp [Advance.on, Phase.cost]
  | compiling args source =>
    exact Advance.check_cost_lt (fun b => by simp [Phase.cost]) (by simp [Phase.cost])
  | keeping args source b => simp [Plan.advance, Advance.on, Phase.cost]
  | calling args b =>
    exact Advance.check_cost_lt (fun o => by simp [Phase.cost]) (by simp [Phase.cost])
  | failing fault => simp [Plan.advance, Advance.on, Phase.cost]
  | storing outputs => simp [Plan.advance, Advance.on, Phase.cost]
  | releasing rest =>
    cases rest with
    | nil => simp [Plan.advance, Advance.done, Phase.cost]
    | cons v rest => simp [Plan.advance, Phase.cost]

lemma Task.cost_pos (t : Task) : 0 < t.cost p := by
  unfold Task.cost
  cases p.nodes[t.place]? with
  | none => exact Nat.one_pos
  | some n =>
    have hlt := next_cost_lt ⟨.empty, fun _ _ => .panic none, .strict⟩ none p
      ⟨[], [], [], [], false, false, []⟩ t.place n t.phase
    exact Nat.zero_lt_of_lt hlt

/-! ## Counters -/

/-- Counting down takes the steps of a node away when its counter comes to zero. -/
lemma waitingCost_modify (v k : ℕ) (counters : List ℕ) :
    waitingCost p k (counters.modify v (· - 1)) +
        (if counters[v]? = some 1 then Task.cost p ⟨k + v, .waiting⟩ else 0) =
      waitingCost p k counters := by
  induction counters generalizing v k with
  | nil => simp [waitingCost]
  | cons c counters ih =>
    cases v with
    | zero =>
      -- the steps of the node go away if the counter was one; at zero they had gone before
      simp only [List.modify_zero_cons, waitingCost, List.getElem?_cons_zero, Option.some.injEq,
        Nat.add_zero]
      by_cases hc : c = 1
      · simp [hc, Nat.add_comm]
      · have hzero : c - 1 = 0 ↔ c = 0 := by omega
        simp [hc, hzero]
    | succ v =>
      have hplace : k + (v + 1) = k + 1 + v := by omega
      simp only [List.modify_succ_cons, waitingCost, List.getElem?_cons_succ, hplace,
        ← ih v (k + 1)]
      omega

/-- The task that a step spawns takes over the steps that the counters give up. -/
lemma Move.spawned_cost {s : Shared} {place : ℕ} {n : PlannedNode} {phase : Phase} {a : Advance}
    (h : Move s place n phase a) :
    (a.spawned.map fun place => Task.cost p ⟨place, .waiting⟩).getD 0 +
        waitingCost p 0 a.shared.counters = waitingCost p 0 s.counters := by
  cases h with
  | skip _ => simp [Advance.done, Shared.note]
  | work _ _ _ hcounters => simp [Advance.on, hcounters]
  | record _ => simp [Advance.on, Shared.note]
  | store _ => simp [Advance.on]
  | finish => simp [Advance.done]
  | release v rest =>
    have hmodify := waitingCost_modify (p := p) v 0 s.counters
    rw [Nat.zero_add] at hmodify
    simp only
    by_cases hone : s.counters[v]? = some 1
    · rw [if_pos hone, Option.map_some, Option.getD_some]
      rw [if_pos hone] at hmodify
      omega
    · rw [if_neg hone, Option.map_none, Option.getD_none]
      rw [if_neg hone] at hmodify
      omega

/-! ## The machine -/

namespace Machine

variable {m m' : Machine}

lemma sum_cost_nextTask (place : ℕ) {n : PlannedNode} (hn : p.nodes[place]? = some n)
    (next : Option Phase) :
    ((nextTask place next).map (Task.cost p)).sum = next.elim 0 (Phase.cost n) := by
  cases next <;> simp [nextTask, Task.cost, hn]

lemma sum_cost_spawnedTask (spawned : Option ℕ) :
    ((spawnedTask spawned).map (Task.cost p)).sum =
      (spawned.map fun place => Task.cost p ⟨place, .waiting⟩).getD 0 := by
  cases spawned <;> simp [spawnedTask]

/-- Every step takes away from the work that is left. -/
lemma work_step_lt (h : Step env token p m m') : m'.work p < m.work p := by
  obtain ⟨before, after, place, phase, hsplit, hstep⟩ := h.exists_split
  have hsum : (m.tasks.map (Task.cost p)).sum = (before.map (Task.cost p)).sum +
      (Task.cost p ⟨place, phase⟩ + (after.map (Task.cost p)).sum) := by
    simp only [hsplit, List.map_append, List.map_cons, List.sum_append, List.sum_cons]
  rcases hstep with ⟨-, rfl⟩ | ⟨n, hn, rfl⟩
  · have hpos := Task.cost_pos (p := p) ⟨place, phase⟩
    simp only [work, hsum, List.map_append, List.sum_append]
    omega
  · have hcost : Task.cost p ⟨place, phase⟩ = phase.cost n := by simp [Task.cost, hn]
    have hnext := next_cost_lt env token p m.shared place n phase
    have hspawned := (Move.of_advance env token p m.shared place n phase).spawned_cost (p := p)
    simp only [work, hsum, List.map_append, List.sum_append, sum_cost_nextTask place hn,
      sum_cost_spawnedTask]
    omega

/-- No run goes on forever. -/
lemma wellFounded_step : WellFounded fun m' m => Step env token p m m' :=
  Subrelation.wf (fun h => work_step_lt h) (measure (Machine.work p)).wf

/-- A run with a step for each unit of work that is left comes to its end. -/
lemma drain_done {fuel : ℕ} (h : m.work p ≤ fuel) : (m.drain env token p fuel).tasks = [] := by
  induction fuel generalizing m with
  | zero =>
    cases ht : m.tasks with
    | nil => simpa [drain] using ht
    | cons t rest =>
      have hpos := Task.cost_pos (p := p) t
      simp only [work, ht, List.map_cons, List.sum_cons] at h
      omega
  | succ fuel ih =>
    rw [drain]
    cases ht : m.tasks with
    | nil => simpa using ht
    | cons t rest =>
      have hlt : (m.step env token p 0).work p < m.work p :=
        work_step_lt ⟨0, by simp [ht], rfl⟩
      exact ih (by omega)

lemma drain_steps (env : Environment) (token : Option CancelToken) (p : Plan) (fuel : ℕ)
    (m : Machine) : Relation.ReflTransGen (Step env token p) m (m.drain env token p fuel) := by
  induction fuel generalizing m with
  | zero => exact .refl
  | succ fuel ih =>
    rw [drain]
    cases ht : m.tasks with
    | nil => exact .refl
    | cons t rest => exact .head ⟨0, by simp [ht], rfl⟩ (ih _)

/-- At the start, the steps of all nodes are left. -/
lemma work_start (p : Plan) (stopped : Bool) :
    (start p stopped).work p = (p.nodes.map PlannedNode.steps).foldl (· + ·) 0 := by
  have key : ∀ (nodes : List PlannedNode) (k : ℕ),
      (∀ i n, nodes[i]? = some n → p.nodes[k + i]? = some n) →
      (((nodes.zipIdx k).filter fun n => n.1.dependencyCount == 0).map fun n =>
          Task.cost p ⟨n.2, .waiting⟩).sum +
        waitingCost p k (nodes.map PlannedNode.dependencyCount) =
          (nodes.map PlannedNode.steps).sum := by
    intro nodes
    induction nodes with
    | nil => intro k _; rfl
    | cons n nodes ih =>
      intro k hnodes
      have hcost : Task.cost p ⟨k, .waiting⟩ = n.steps := by
        have hn := hnodes 0 n rfl
        rw [Nat.add_zero] at hn
        simp [Task.cost, hn, Phase.cost]
      have hrest := ih (k + 1) fun i m hm => by
        rw [show k + 1 + i = k + (i + 1) by omega]
        exact hnodes (i + 1) m hm
      rw [List.map_cons, List.map_cons, List.sum_cons, ← hrest, List.zipIdx_cons, waitingCost,
        hcost]
      by_cases hcount : n.dependencyCount = 0
      · simp [hcount, hcost]
        omega
      · simp [hcount]
        omega
  have h := key p.nodes 0 fun i n hn => by rwa [Nat.zero_add]
  rw [← List.sum_eq_foldl, ← h, work, start]
  simp [List.sum_reverse, Function.comp_def]

end Machine

end

end Dataflow

import Dataflow.Proofs.Run.AnyOutcome
import Dataflow.Proofs.Run.Cancellation

/-!
# Runs and the calls that they make

A run makes calls on its way, and each of them may come to anything.  `Plan.Runs` has the runs of
a plan with their reports and the calls that were made, each with the place of its node: sequential
runs in a world, and parallel runs in which every step may find another environment and another
function, and between any two steps the token may be cancelled from outside.  A place goes through
its `Course`: nothing comes of the node, then its call comes to something, and this is recorded and
stored.  So the report says of every node that was executed what came of its call
(`Plan.Runs.tells`).
-/

namespace Dataflow

/-- What a list has at a place. -/
def atPlace {α : Type} (l : List (ℕ × α)) (place : ℕ) : List α :=
  l.filterMap fun e => if e.1 = place then some e.2 else none

section AtPlace

variable {α : Type} {l l' : List (ℕ × α)} {place : ℕ} {a : α}

@[simp] lemma atPlace_append (l l' : List (ℕ × α)) (place : ℕ) :
    atPlace (l ++ l') place = atPlace l place ++ atPlace l' place := by
  rw [atPlace, List.filterMap_append]
  rfl

lemma mem_atPlace : a ∈ atPlace l place ↔ (place, a) ∈ l := by
  simp only [atPlace, List.mem_filterMap, Option.ite_none_right_eq_some, Option.some.injEq]
  constructor
  · rintro ⟨⟨place, a⟩, hmem, rfl, rfl⟩
    exact hmem
  · exact fun hmem => ⟨_, hmem, rfl, rfl⟩

lemma atPlace_singleton_self (place : ℕ) (a : α) : atPlace [(place, a)] place = [a] := by
  simp [atPlace]

lemma atPlace_map_of_ne {other : ℕ} (h : other ≠ place) (l : List α) :
    atPlace (l.map fun a => (place, a)) other = [] := by
  simp [atPlace, Ne.symm h]

lemma atPlace_map_self (place : ℕ) (l : List α) :
    atPlace (l.map fun a => (place, a)) place = l := by
  simp [atPlace, List.filterMap_map]

end AtPlace

/-! ## Sequential runs -/

/-- The calls that a run makes in a world for the given nodes, the last of the plan. -/
def Plan.callsFromIn (w : World) (token : Option CancelToken) (p : Plan) (s : Progress) :
    List PlannedNode → List (ℕ × Invocation)
  | [] => []
  | n :: rest =>
    if s.stopped then []
    else
      (w.invocation? p s n).toList.map (fun c => (s.stored.length, c)) ++
        p.callsFromIn w token (s.after token n (w.realize p s n)) rest

/-- The calls that a sequential run makes in a world. -/
def Plan.callsIn (w : World) (token : Option CancelToken) (stopped : Bool) (p : Plan) :
    List (ℕ × Invocation) := p.callsFromIn w token (.start stopped) p.nodes

/-- The calls are those of the given nodes. -/
def Settled.CallsOf (calls : List (ℕ × Invocation)) (nodes : List Settled) : Prop :=
  ∀ place c, (place, c) ∈ calls ↔ ∃ d, nodes[place]? = some d ∧ d.invocation? = some c

lemma Settled.CallsOf.append {calls : List (ℕ × Invocation)} {before : List Settled}
    (h : CallsOf calls before) (d : Settled) :
    CallsOf (calls ++ d.invocation?.toList.map fun c => (before.length, c)) (before ++ [d]) := by
  intro place c
  rw [List.mem_append, h place c]
  constructor
  · rintro (⟨d', hd', hc⟩ | hmem)
    · have hlt := (List.getElem?_eq_some_iff.1 hd').1
      exact ⟨d', by rwa [List.getElem?_append_left hlt], hc⟩
    · obtain ⟨c', hc', heq⟩ := List.mem_map.1 hmem
      obtain ⟨rfl, rfl⟩ := Prod.mk.inj heq
      exact ⟨d, by simp, by simpa using hc'⟩
  · rintro ⟨d', hd', hc⟩
    by_cases hlt : place < before.length
    · rw [List.getElem?_append_left hlt] at hd'
      exact .inl ⟨d', hd', hc⟩
    · -- behind the nodes before there is only `d`
      rw [List.getElem?_append_right (by omega)] at hd'
      obtain ⟨hzero, rfl⟩ : place - before.length = 0 ∧ d = d' := by
        cases hsub : place - before.length with
        | zero => exact ⟨rfl, by simpa [hsub] using hd'⟩
        | succ k => simp [hsub] at hd'
      refine .inr (List.mem_map.2 ⟨c, by simp [hc], ?_⟩)
      rw [show before.length = place by omega]

/-- A run settles the nodes up to the one that finds the token cancelled, if there is one, and its
calls are those of the settled nodes. -/
lemma Progress.Keeps.runFromIn {w : World} {p : Plan} {s : Progress} {before : List Settled}
    {calls : List (ℕ × Invocation)} (h : s.Keeps w.policy before)
    (hcalls : Settled.CallsOf calls before) (token : Option CancelToken)
    (nodes : List PlannedNode) :
    ∃ settled rest, before.map Settled.node ++ nodes = settled.map Settled.node ++ rest ∧
      (p.runFromIn w token s nodes).1.Keeps w.policy settled ∧
      Settled.CallsOf (calls ++ p.callsFromIn w token s nodes) settled := by
  induction nodes generalizing s before calls with
  | nil => exact ⟨before, [], rfl, h, by simpa [Plan.callsFromIn] using hcalls⟩
  | cons n nodes ih =>
    rw [Plan.runFromIn, Plan.callsFromIn]
    by_cases hstopped : s.stopped = true
    · rw [if_pos hstopped, if_pos hstopped, List.append_nil]
      exact ⟨before, n :: nodes, rfl, ⟨h.stored_eq, h.failures_eq⟩, hcalls⟩
    · rw [if_neg hstopped, if_neg hstopped, ← List.append_assoc]
      have hlength : s.stored.length = before.length := by rw [h.stored_eq, List.length_map]
      have hcalls' := hcalls.append (w.settle p s n)
      rw [← w.invocation?_eq, ← hlength] at hcalls'
      obtain ⟨settled, rest, hsplit, hkeeps, hof⟩ := ih (h.after p token n) hcalls'
      refine ⟨settled, rest, ?_, hkeeps, hof⟩
      rw [← hsplit, List.map_append, List.append_assoc]
      rfl

/-! ## The course of a place -/

/-- The call that a task makes in its next step. -/
def Phase.call? (n : PlannedNode) : Phase → Option Invocation
  | calling args b => some ⟨n.id, b, args⟩
  | _ => none

/-- How far a place has come in a parallel run: what its task does next, the outputs that are
stored, the failures that are recorded, and the calls that were made. -/
inductive Course (policy : OutputPolicy) (n : PlannedNode) :
    Option Phase → Option Outputs → List NodeError → List Invocation → Prop where
  /-- Nothing has come of the node so far. -/
  | before {phase? : Option Phase} (h : ∀ phase, phase? = some phase → phase.isSettled = false) :
    Course policy n phase? none [] []
  | failing {d : Settled} (hd : d.node = n) {fault : NodeFault}
    (h : d.outcome policy = .error fault) :
    Course policy n (some (.failing fault)) none [] d.invocation?.toList
  | storing {d : Settled} (hd : d.node = n) :
    Course policy n (some (.storing (d.outputs policy))) none (d.failure? policy).toList
      d.invocation?.toList
  | stored {d : Settled} (hd : d.node = n) {phase? : Option Phase}
    (h : ∀ phase, phase? = some phase → phase.isReleasing = true) :
    Course policy n phase? (some (d.outputs policy)) (d.failure? policy).toList
      d.invocation?.toList

namespace Course

variable {policy : OutputPolicy} {n : PlannedNode} {phase : Phase} {phase? : Option Phase}
  {view : Option Outputs} {failures : List NodeError} {calls : List Invocation}

/-- A place without a task is at one of the ends of its course. -/
lemma of_none (h : Course policy n none view failures calls) :
    (view = none ∧ failures = [] ∧ calls = []) ∨
      ∃ d : Settled, d.node = n ∧ view = some (d.outputs policy) ∧
        failures = (d.failure? policy).toList ∧ calls = d.invocation?.toList := by
  cases h with
  | before _ => exact .inl ⟨rfl, rfl, rfl⟩
  | @stored d hd _ _ => exact .inr ⟨d, hd, rfl, rfl, rfl⟩

/-- A task that is on its way goes on. -/
lemma working (h : phase.isSettled = false) : Course policy n (some phase) none [] [] :=
  .before fun _ heq => Option.some.inj heq ▸ h

lemma of_working (h : Course policy n (some phase) view failures calls)
    (hphase : phase.isSettled = false) : view = none ∧ failures = [] ∧ calls = [] := by
  cases h with
  | before _ => exact ⟨rfl, rfl, rfl⟩
  | failing _ _ => simp [Phase.isSettled] at hphase
  | storing _ => simp [Phase.isSettled] at hphase
  | stored _ hreleasing =>
    have hsettled := Phase.isReleasing_of_not_isSettled hphase
    rw [hreleasing phase rfl] at hsettled
    simp at hsettled

/-- A fault that keeps a node from being called. -/
lemma of_fault (n : PlannedNode) (fault : NodeFault) :
    Course policy n (some (.failing fault)) none [] [] :=
  .failing (d := ⟨n, .error fault⟩) rfl rfl

/-- A check on the way to the call. -/
lemma check {α : Type} {next : α → Phase} (hnext : ∀ a, (next a).isSettled = false) (s : Shared)
    (r : Except NodeFault α) : Course policy n (Advance.check s next r).next none [] [] := by
  cases r with
  | error fault => exact of_fault n fault
  | ok a => exact working (hnext a)

/-- The call comes to outputs or to a fault. -/
lemma check_called {env : Environment} {args : Arguments} {b : Behavior} {cache : Cache}
    {events : List Event} (s : Shared) :
    Course env.policy n
      (Advance.check s .storing (env.called n args b cache events).result).next none []
      [⟨n.id, b, args⟩] := by
  let d : Settled := ⟨n, .ok (args, b)⟩
  rw [called_result]
  change Course env.policy n (Advance.check s .storing (d.outcome env.policy)).next none []
    d.invocation?.toList
  cases houtcome : d.outcome env.policy with
  | error fault => exact .failing rfl houtcome
  | ok outputs =>
    have houtputs : outputs = d.outputs env.policy := by rw [Settled.outputs, houtcome]
    have hfailures : [] = (d.failure? env.policy).toList := by
      rw [Settled.failure?_eq_none_iff.2 ⟨outputs, houtcome⟩]
      rfl
    rw [houtputs, hfailures]
    exact .storing rfl

section Advance

variable {env : Environment} {s : Shared} {place : ℕ}

/-- What a task that is on its way does next. -/
lemma next_of_working (p : Plan) (token : Option CancelToken) (hphase : phase.isSettled = false) :
    Course env.policy n (p.advance env token s place n phase).next none []
      (phase.call? n).toList := by
  cases phase with
  | waiting =>
    rw [Plan.advance]
    split
    · exact .before (by simp [Advance.done])
    · change Course env.policy n (some n.firstPhase) none [] []
      unfold PlannedNode.firstPhase
      split
      · exact of_fault n _
      · exact working rfl
  | reading args rest =>
    cases rest with
    | nil => exact working rfl
    | cons b rest => exact check (fun _ => rfl) _ _
  | resolving args =>
    refine check (fun f => ?_) _ _
    cases f <;> rfl
  | seeking args source =>
    rw [Plan.advance]
    split <;> exact working rfl
  | compiling args source => exact check (fun _ => rfl) _ _
  | keeping args source b => exact working rfl
  | calling args b => exact check_called _
  | failing _ => simp [Phase.isSettled] at hphase
  | storing _ => simp [Phase.isSettled] at hphase
  | releasing _ => simp [Phase.isSettled] at hphase

/-- On the way to the call of a node, nothing is stored or recorded at its place. -/
lemma kept_of_working (env : Environment) (p : Plan) (token : Option CancelToken) (n : PlannedNode)
    (hphase : phase.isSettled = false) (hlt : place < s.slots.length) :
    (p.advance env token s place n phase).shared.view place = s.view place ∧
      (p.advance env token s place n phase).shared.failures = s.failures := by
  have hmove := Move.of_advance env token p s place n phase
  constructor
  · rcases hmove.view_eq hlt place with hsame | ⟨-, outputs, rfl, -⟩
    · exact hsame
    · simp [Phase.isSettled] at hphase
  · rcases hmove.failures_eq with hsame | ⟨fault, rfl, -⟩
    · exact hsame
    · simp [Phase.isSettled] at hphase

/-- A task that has stored its outputs releases one successor after the other. -/
lemma advance_releasing {d : Settled} (p : Plan) (token : Option CancelToken) (hd : d.node = n)
    (hphase : phase.isReleasing = true) (hview : s.view place = some (d.outputs env.policy))
    (hfailures : atPlace s.failures place = (d.failure? env.policy).toList) :
    Course env.policy n (p.advance env token s place n phase).next
      ((p.advance env token s place n phase).shared.view place)
      (atPlace (p.advance env token s place n phase).shared.failures place)
      (d.invocation?.toList ++ (phase.call? n).toList) := by
  obtain ⟨rest, rfl⟩ : ∃ rest, phase = .releasing rest := by
    cases phase with
    | releasing rest => exact ⟨rest, rfl⟩
    | _ => simp [Phase.isReleasing] at hphase
  cases rest with
  | nil =>
    change Course env.policy n none (s.view place) (atPlace s.failures place)
      (d.invocation?.toList ++ [])
    rw [hview, hfailures, List.append_nil]
    exact .stored hd (by simp)
  | cons next rest =>
    change Course env.policy n (some (.releasing rest)) (s.view place)
      (atPlace s.failures place) (d.invocation?.toList ++ [])
    rw [hview, hfailures, List.append_nil]
    exact .stored hd fun _ heq => Option.some.inj heq ▸ rfl

/-- A step of the task of a node takes its place one step further. -/
lemma advance (p : Plan) (token : Option CancelToken)
    (h : Course env.policy n (some phase) (s.view place) (atPlace s.failures place) calls)
    (hlt : place < s.slots.length) :
    Course env.policy n (p.advance env token s place n phase).next
      ((p.advance env token s place n phase).shared.view place)
      (atPlace (p.advance env token s place n phase).shared.failures place)
      (calls ++ (phase.call? n).toList) := by
  have hmove := Move.of_advance env token p s place n phase
  generalize hview : s.view place = view at h
  generalize hfailures : atPlace s.failures place = failures at h
  cases h with
  | before hbefore =>
    have hphase : phase.isSettled = false := hbefore phase rfl
    obtain ⟨hviewed, hrecorded⟩ := kept_of_working env p token n hphase hlt
    rw [hviewed, hrecorded, hview, hfailures]
    exact next_of_working p token hphase
  | @failing d hd fault houtcome =>
    change Course env.policy n (some (.storing n.nulls)) (s.view place)
      (atPlace (s.failures ++ [(place, n.fault fault)]) place) (d.invocation?.toList ++ [])
    have hnulls : n.nulls = d.outputs env.policy := by rw [Settled.outputs, houtcome, hd]
    have hfailure : [n.fault fault] = (d.failure? env.policy).toList := by
      rw [Settled.failure?, houtcome, hd]
      rfl
    rw [hview, atPlace_append, hfailures, atPlace_singleton_self, List.nil_append,
      List.append_nil, hnulls, hfailure]
    exact .storing hd
  | @storing d hd =>
    rw [hmove.view_of_storing hlt]
    change Course env.policy n (some (.releasing n.successors)) _ (atPlace s.failures place)
      (d.invocation?.toList ++ [])
    rw [hfailures, List.append_nil]
    exact .stored hd fun _ heq => Option.some.inj heq ▸ rfl
  | @stored d hd _ hreleasing =>
    exact advance_releasing p token hd (hreleasing phase rfl) hview hfailures

end Advance

end Course

/-! ## Parallel runs -/

namespace Machine

/-- The call that the step of the task at an index makes, with the place of its node. -/
def callAt (p : Plan) (m : Machine) (index : ℕ) : List (ℕ × Invocation) :=
  match m.tasks[index]? with
  | none => []
  | some t =>
    match p.nodes[t.place]? with
    | none => []
    | some n => (t.phase.call? n).toList.map fun c => (t.place, c)

/-- The parallel runs of a plan: the calls that were made, and the state that is reached. -/
inductive Makes (policy : OutputPolicy) (token : Option CancelToken) (p : Plan) (stopped : Bool) :
    List (ℕ × Invocation) → Machine → Prop where
  | start : Makes policy token p stopped [] (start p stopped)
  | cancel {calls : List (ℕ × Invocation)} {m : Machine}
    (h : Makes policy token p stopped calls m) : Makes policy token p stopped calls m.cancel
  | step {calls : List (ℕ × Invocation)} {m : Machine} (h : Makes policy token p stopped calls m)
    (env : Environment) (henv : env.policy = policy) (b : Behavior) {i : ℕ}
    (hi : i < m.tasks.length) :
    Makes policy token p stopped (calls ++ (m.answering i b).callAt p i)
      ((m.answering i b).step env token p i)

end Machine

/-- All places of a run are on their courses. -/
structure Courses (policy : OutputPolicy) (p : Plan) (calls : List (ℕ × Invocation))
    (m : Machine) : Prop where
  course : ∀ q n, p.nodes[q]? = some n → Course policy n (m.phase? q) (m.shared.view q)
    (atPlace m.shared.failures q) (atPlace calls q)
  failures_lt : ∀ e ∈ m.shared.failures, e.1 < p.size

namespace Courses

open Machine

variable {policy : OutputPolicy} {env : Environment} {token : Option CancelToken} {p : Plan}
  {calls : List (ℕ × Invocation)} {m m' : Machine} {owed : ℕ → List ℕ} {place : ℕ}
  {n : PlannedNode} {phase : Phase} {a : Advance} {stopped : Bool}

lemma start (policy : OutputPolicy) (p : Plan) (stopped : Bool) :
    Courses policy p [] (.start p stopped) := by
  refine ⟨fun q n hn => ?_, by simp [Machine.start]⟩
  rw [Control.view_start]
  refine .before fun phase hphase => ?_
  rw [Control.phase?_start stopped hn] at hphase
  split at hphase
  · exact Option.some.inj hphase ▸ rfl
  · simp at hphase

lemma cancel (h : Courses policy p calls m) : Courses policy p calls m.cancel :=
  ⟨h.course, h.failures_lt⟩

lemma answering (h : Courses policy p calls m) (i : ℕ) (b : Behavior) :
    Courses policy p calls (m.answering i b) := by
  refine ⟨fun q n hn => ?_, h.failures_lt⟩
  have hcourse := h.course q n hn
  change Course policy n _ (m.shared.view q) (atPlace m.shared.failures q) (atPlace calls q)
  rcases m.phase?_answering i b q with heq | ⟨args, b', hcalling, heq⟩
  · rwa [heq]
  · rw [hcalling] at hcourse
    obtain ⟨hview, hfailures, hcalls⟩ := hcourse.of_working rfl
    rw [heq, hview, hfailures, hcalls]
    exact .working rfl

/-- Away from the place of a step, a place stays where it is on its course. -/
lemma course_of_ne (h : Courses policy p calls m) (hcontrol : Control p owed m)
    (hadv : Advances env token p m m' place n phase a) {q : ℕ} {nq : PlannedNode}
    (hnq : p.nodes[q]? = some nq) (hq : q ≠ place) :
    Course policy nq (m'.phase? q) (m'.shared.view q) (atPlace m'.shared.failures q)
      (atPlace calls q) := by
  have hcourse := h.course q nq hnq
  have hmove := hadv.move
  have hlt : place < m.shared.slots.length :=
    hcontrol.length_slots ▸ Plan.lt_size_of_getElem? hadv.node
  have hview : m'.shared.view q = m.shared.view q := by
    rw [hadv.shared_eq]
    exact (hmove.view_eq hlt q).resolve_right fun hplace => hq hplace.1
  have hfailures : atPlace m'.shared.failures q = atPlace m.shared.failures q := by
    rw [hadv.shared_eq]
    rcases hmove.failures_eq with hsame | ⟨fault, -, hsame, -⟩
    · rw [hsame]
    · rw [hsame, atPlace_append]
      have hnone := atPlace_map_of_ne hq [n.fault fault]
      rw [List.map_singleton] at hnone
      rw [hnone, List.append_nil]
  rw [hview, hfailures]
  by_cases hspawned : a.spawned = some q
  · -- a task is spawned where nothing is stored
    have hcounter := hmove.counter_of_spawned hspawned
    rw [hcontrol.counter_eq q (Plan.lt_size_of_getElem? hnq), Option.some.injEq] at hcounter
    obtain ⟨-, hnone, -⟩ := (hcontrol.standing q nq hnq).of_pos (by omega)
    have hunstored : m.shared.view q = none := by simpa using hnone
    rw [hadv.phase?_fresh q hspawned, hunstored] at hcourse
    rw [hadv.phase?_spawned q hspawned, hunstored]
    generalize atPlace m.shared.failures q = failures at hcourse ⊢
    generalize atPlace calls q = made at hcourse ⊢
    cases hcourse with
    | before _ => exact .working rfl
  · rwa [hadv.phase?_other q hq hspawned]

/-- A step of a task keeps all places on their courses. -/
lemma advance (h : Courses env.policy p calls m) (hcontrol : Control p owed m)
    (hadv : Advances env token p m m' place n phase a) :
    Courses env.policy p (calls ++ (phase.call? n).toList.map fun c => (place, c)) m' := by
  have hsize : place < p.size := Plan.lt_size_of_getElem? hadv.node
  refine ⟨fun q nq hnq => ?_, fun e he => ?_⟩
  · rw [atPlace_append]
    by_cases hq : q = place
    · subst hq
      obtain rfl : nq = n := Option.some.inj (hnq.symm.trans hadv.node)
      have hcourse := h.course q nq hnq
      rw [hadv.task] at hcourse
      have hstep := hcourse.advance p token (hcontrol.length_slots ▸ hsize)
      rw [hadv.advance_eq] at hstep
      rwa [hadv.phase?_self, hadv.shared_eq, atPlace_map_self]
    · rw [atPlace_map_of_ne hq, List.append_nil]
      exact h.course_of_ne hcontrol hadv hnq hq
  · rw [hadv.shared_eq] at he
    rcases hadv.move.failures_eq with hsame | ⟨fault, -, hsame, -⟩
    · exact h.failures_lt e (hsame ▸ he)
    · rw [hsame] at he
      rcases List.mem_append.1 he with hold | hnew
      · exact h.failures_lt e hold
      · rw [List.mem_singleton.1 hnew]
        exact hsize

end Courses

/-- In every state that a run reaches, all places are on their courses. -/
lemma Machine.Makes.courses {policy : OutputPolicy} {token : Option CancelToken} {p : Plan}
    {stopped : Bool} {calls : List (ℕ × Invocation)} {m : Machine} (hp : p.Linked)
    (h : Machine.Makes policy token p stopped calls m) :
    (∃ owed, Control p owed m) ∧ Courses policy p calls m := by
  induction h with
  | start => exact ⟨⟨_, Control.start hp stopped⟩, .start policy p stopped⟩
  | cancel _ ih =>
    obtain ⟨⟨owed, hcontrol⟩, hcourses⟩ := ih
    exact ⟨⟨owed, hcontrol.cancel⟩, hcourses.cancel⟩
  | @step calls m _ env henv b i hi ih =>
    obtain ⟨⟨owed, hcontrol⟩, hcourses⟩ := ih
    subst henv
    have hcontrol' := hcontrol.answering i b
    obtain ⟨⟨place, phase⟩, ht⟩ : ∃ t, (m.answering i b).tasks[i]? = some t :=
      ⟨_, List.getElem?_eq_getElem (by simpa [answering] using hi)⟩
    obtain ⟨n, hadv⟩ : ∃ n, Advances env token p (m.answering i b)
        ((m.answering i b).step env token p i) place n phase
        (p.advance env token (m.answering i b).shared place n phase) :=
      hcontrol'.advances_step ht
    have hcalls : (m.answering i b).callAt p i =
        (phase.call? n).toList.map fun c => (place, c) := by
      simp only [callAt, ht, hadv.node]
    rw [hcalls]
    exact ⟨hcontrol'.advance hp hadv, (hcourses.answering i b).advance hcontrol' hadv⟩

/-! ## Reports -/

/-- The runs of a plan whose calls come to anything: the calls that were made, and the report. -/
inductive Plan.Runs (policy : OutputPolicy) (p : Plan) :
    List (ℕ × Invocation) → Report → Prop where
  | sequential (w : World) (hw : w.policy = policy) (token : Option CancelToken) (stopped : Bool) :
    Runs policy p (p.callsIn w token stopped) (p.runSequentialIn w token stopped).result
  | parallel {token : Option CancelToken} {stopped : Bool} {calls : List (ℕ × Invocation)}
    {m : Machine} (hm : Machine.Makes policy token p stopped calls m) (htasks : m.tasks = []) :
    Runs policy p calls (m.report p)

/-- The failure of a node is the only one under its id. -/
lemma Report.failure?_eq_of_iff {r : Report} {id : String} {x : Option NodeError}
    (h : ∀ e, e ∈ r.failures ∧ e.id = id ↔ x = some e) : r.failure? id = x := by
  cases hfind : r.failure? id with
  | some e =>
    exact ((h e).1 ⟨List.mem_of_find?_eq_some hfind, by simpa using List.find?_some hfind⟩).symm
  | none =>
    have hnone := List.find?_eq_none.1 hfind
    rw [eq_comm, Option.eq_none_iff_forall_ne_some]
    intro e he
    obtain ⟨hmem, hid⟩ := (h e).2 he
    exact hnone e hmem (by simpa using hid)

namespace Plan.Runs

variable {policy : OutputPolicy} {p : Plan} {calls : List (ℕ × Invocation)} {r : Report} {i : ℕ}
  {n : PlannedNode}

/-- A node has no part in a run, or it was settled: the calls at its place, its outputs and its
failure are those of one outcome. -/
def Tells (policy : OutputPolicy) (calls : List (ℕ × Invocation)) (r : Report) (i : ℕ)
    (n : PlannedNode) : Prop :=
  (r.outputs.find? n.id = none ∧ r.failure? n.id = none ∧ ∀ c, (i, c) ∉ calls) ∨
    ∃ d : Settled, d.node = n ∧ (∀ c, (i, c) ∈ calls ↔ d.invocation? = some c) ∧
      r.outputs.find? n.id = some (d.outputs policy) ∧ r.failure? n.id = d.failure? policy

lemma tells_sequential (hids : p.order.Nodup) (w : World) (token : Option CancelToken)
    (stopped : Bool) (hn : p.nodes[i]? = some n) :
    Tells w.policy (p.callsIn w token stopped) (p.runSequentialIn w token stopped).result i n := by
  obtain ⟨settled, rest, hsplit, hkeeps, hof⟩ := (Progress.Keeps.start w.policy stopped).runFromIn
    (p := p) (show Settled.CallsOf [] [] by simp [Settled.CallsOf]) token p.nodes
  rw [List.map_nil, List.nil_append] at hsplit
  rw [List.nil_append] at hof
  have houtputs : (p.runSequentialIn w token stopped).result.outputs.find? n.id =
      settled[i]?.map (Settled.outputs w.policy) := by
    have hslots : (p.runSequentialIn w token stopped).result.outputs =
        p.collected (Settled.slots w.policy settled) := by
      rw [← hkeeps.slots_eq]
      rfl
    rw [hslots, Plan.find?_collected_eq hids hn, Settled.slots]
  have hfailures : (p.runSequentialIn w token stopped).result.failures =
      settled.filterMap (Settled.failure? w.policy) := hkeeps.failures_eq
  have hplace {j : ℕ} {d : Settled} (hd : settled[j]? = some d) : p.nodes[j]? = some d.node := by
    have hlt := (List.getElem?_eq_some_iff.1 hd).1
    rw [hsplit, List.getElem?_append_left (by simpa using hlt), List.getElem?_map, hd]
    rfl
  cases hd : settled[i]? with
  | none =>
    refine .inl ⟨by rw [houtputs, hd]; rfl, ?_, fun c hc => ?_⟩
    · -- a settled node with the id of the node would be at its place
      rw [Report.failure?, hfailures]
      refine Settled.find?_failures_eq_none fun d hmem hid => ?_
      obtain ⟨j, hj⟩ := List.getElem?_of_mem hmem
      rw [← Plan.place_unique hids (hplace hj) hn hid, hj] at hd
      simp at hd
    · obtain ⟨d, hd', -⟩ := (hof i c).1 hc
      simp [hd] at hd'
  | some d =>
    have hnode : d.node = n := Option.some.inj ((hplace hd).symm.trans hn)
    refine .inr ⟨d, hnode, fun c => ?_, by rw [houtputs, hd]; rfl, ?_⟩
    · refine (hof i c).trans ⟨?_, fun hc => ⟨d, hd, hc⟩⟩
      rintro ⟨d', hd', hc⟩
      rwa [Option.some.inj (hd.symm.trans hd')]
    · have hsettled : (settled.map fun d => d.node.id).Nodup := by
        have hsublist : (settled.map fun d => d.node.id).Sublist p.order := by
          rw [Plan.order, hsplit, List.map_append, List.map_map]
          exact List.sublist_append_left _ _
        exact hsublist.nodup hids
      rw [Report.failure?, hfailures, ← hnode]
      exact Settled.find?_failures hsettled (List.mem_of_getElem? hd)

lemma tells_parallel {token : Option CancelToken} {stopped : Bool} {m : Machine}
    (hids : p.order.Nodup) (hp : p.Linked) (hm : Machine.Makes policy token p stopped calls m)
    (htasks : m.tasks = []) (hn : p.nodes[i]? = some n) :
    Tells policy calls (m.report p) i n := by
  obtain ⟨-, hcourses⟩ := hm.courses hp
  -- no task is left, so that every place is at one of the ends of its course
  have hend {q : ℕ} {nq : PlannedNode} (hnq : p.nodes[q]? = some nq) := by
    have hcourse := hcourses.course q nq hnq
    rw [Machine.phase?_eq_none_iff.2 (by simp [htasks])] at hcourse
    exact hcourse.of_none
  have houtputs : (m.report p).outputs.find? n.id = m.shared.view i := by
    rw [Machine.report, Plan.find?_collected_eq hids hn]
  -- a failure under the id of the node was recorded at its place
  have hrecorded : ∀ e, e ∈ (m.report p).failures ∧ e.id = n.id ↔
      e ∈ atPlace m.shared.failures i ∧ e.id = n.id := by
    intro e
    have hmem : e ∈ (m.report p).failures ↔ ∃ q, (q, e) ∈ m.shared.failures := by
      simp [Machine.report, List.mem_mergeSort]
    rw [hmem, mem_atPlace]
    refine and_congr_left fun hid => ⟨?_, fun he => ⟨i, he⟩⟩
    rintro ⟨q, he⟩
    obtain ⟨nq, hnq⟩ := Plan.exists_node (hcourses.failures_lt _ he)
    have hat := mem_atPlace.2 he
    obtain ⟨dq, hdq, -, hfailures, -⟩ :=
      (hend hnq).resolve_left fun hnone => by simp [hnone.2.1] at hat
    have hfailure : dq.failure? policy = some e := by simpa [hfailures] using hat
    have hqid : nq.id = n.id := (hdq ▸ Settled.id_of_failure? hfailure).symm.trans hid
    rwa [← Plan.place_unique hids hnq hn hqid]
  rcases hend hn with ⟨hview, hfailures, hcalls⟩ | ⟨d, hd, hview, hfailures, hcalls⟩
  · refine .inl ⟨houtputs.trans hview, Report.failure?_eq_of_iff fun e => ?_, fun c hc => ?_⟩
    · rw [hrecorded, hfailures]
      simp
    · rw [← mem_atPlace, hcalls] at hc
      simp at hc
  · refine .inr ⟨d, hd, fun c => ?_, houtputs.trans hview, Report.failure?_eq_of_iff fun e => ?_⟩
    · rw [← mem_atPlace, hcalls]
      simp
    · rw [hrecorded, hfailures, Option.mem_toList]
      exact ⟨And.left, fun he => ⟨he, (Settled.id_of_failure? he).trans (by rw [hd])⟩⟩

/-- **A report says of a node that was executed what came of its call**, or of the fault that kept
it from being called; of any other node it says nothing. -/
lemma tells (h : p.Runs policy calls r) (hids : p.order.Nodup) (hp : p.Linked)
    (hn : p.nodes[i]? = some n) : Tells policy calls r i n := by
  cases h with
  | sequential w hw token stopped =>
    subst hw
    exact tells_sequential hids w token stopped hn
  | parallel hm htasks => exact tells_parallel hids hp hm htasks hn

end Plan.Runs

end Dataflow

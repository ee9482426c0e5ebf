import Dataflow.Run.Report

/-!
# Parallel runs

Every node has a counter of the edges that still lead to it from nodes that have not run.  A
task is spawned for each node whose counter is zero at the start, and for a node whose counter
a finishing task takes from one to zero.  Tasks share the stored outputs, the counters, the
failures and the cache, and they proceed in small steps: `Machine.step` takes one step of one
task, and an interleaving is a sequence of choices of tasks.  `Plan.runParallel` makes the
choice of a single worker, which finishes a task before it turns to the one spawned last.
-/

namespace Dataflow

/-- What a task does next. -/
inductive Phase where
  /-- Looks at the token. -/
  | waiting
  /-- Reads the value of the next binding. -/
  | reading (args : Arguments) (rest : List (String × Binding))
  /-- Finds where the function comes from. -/
  | resolving (args : Arguments)
  /-- Looks for the function in the cache. -/
  | seeking (args : Arguments) (source : String)
  | compiling (args : Arguments) (source : String)
  /-- Puts the function into the cache. -/
  | keeping (args : Arguments) (source : String) (b : Behavior)
  | calling (args : Arguments) (b : Behavior)
  /-- Records the fault. -/
  | failing (fault : NodeFault)
  | storing (outputs : Outputs)
  /-- Counts down the counter of the next successor. -/
  | releasing (rest : List Nat)

/-- A task for the node at a place of the plan. -/
structure Task where
  place : Nat
  phase : Phase

/-- What the tasks of a run share. -/
structure Shared where
  slots : List (Option Outputs)
  /-- For each node the number of edges from nodes that have not released it. -/
  counters : List Nat
  failures : List (Nat × NodeError)
  cache : Cache
  /-- Whether the token is cancelled. -/
  stopped : Bool
  /-- Whether some task found the token cancelled. -/
  cancelled : Bool
  events : List Event

namespace Shared

/-- What is stored at the places of a plan. -/
def view (s : Shared) : Slots := fun place => s.slots[place]?.join

/-- The state with more events. -/
def note (s : Shared) (events : List Event) : Shared := { s with events := s.events ++ events }

end Shared

/-- What comes of a step of a task: what it does next, if it goes on, and the task that it
spawns, if it does. -/
structure Advance where
  shared : Shared
  next : Option Phase
  spawned : Option Nat

namespace Advance

/-- The task goes on. -/
def on (shared : Shared) (phase : Phase) : Advance := ⟨shared, some phase, none⟩

/-- The task is done. -/
def done (shared : Shared) : Advance := ⟨shared, none, none⟩

/-- The task goes on if there is no fault. -/
def check {α : Type} (shared : Shared) (next : α → Phase) : Except NodeFault α → Advance
  | .ok a => on shared (next a)
  | .error fault => on shared (.failing fault)

end Advance

/-- The first phase of a task that may run. -/
def PlannedNode.firstPhase (n : PlannedNode) : Phase :=
  match n.missingInput? with
  | some input => .failing (.missingInput input)
  | none => .reading ⟨[]⟩ n.arguments

/-- One step of a task. -/
def Plan.advance (env : Environment) (token : Option CancelToken) (p : Plan) (s : Shared)
    (place : Nat) (n : PlannedNode) : Phase → Advance
  | .waiting =>
    if s.stopped then .done { s.note [.skipped n.id] with cancelled := true }
    else .on (s.note [.started n.id n.name]) n.firstPhase
  | .reading args [] => .on s (.resolving args)
  | .reading args ((input, binding) :: rest) =>
    .check s (fun v => .reading (args.push input v) rest)
      (binding.value (p.storedValue s.view) input)
  | .resolving args =>
    .check s (fun f => match f with
        | .ready b => .calling args b
        | .text source => .seeking args source)
      (n.behavior.resolve env.registry (p.storedValue s.view))
  | .seeking args source =>
    match s.cache.find? n.name source with
    | some b => .on s (.calling args b)
    | none => .on s (.compiling args source)
  | .compiling args source =>
    .check (s.note [.compiled n.name]) (.keeping args source) (env.compiled n.name source)
  | .keeping args source b =>
    .on { s with cache := ((n.name, source), b) :: s.cache } (.calling args b)
  | .calling args b =>
    let called := env.called n args b s.cache []
    .check { s.note called.events with
      stopped := s.stopped || called.events.any (Event.stops token) }
      .storing called.result
  | .failing fault =>
    .on { s.note [.failed (n.fault fault)] with failures := s.failures ++ [(place, n.fault fault)] }
      (.storing n.nulls)
  | .storing outputs =>
    .on { s with slots := s.slots.set place (some outputs) } (.releasing n.successors)
  | .releasing [] => .done s
  | .releasing (next :: rest) =>
    { shared := { s with counters := s.counters.modify next (· - 1) }
      next := some (.releasing rest)
      spawned := if s.counters[next]? = some 1 then some next else none }

/-- A parallel run: what is shared, and the tasks that are spawned and not done. -/
structure Machine where
  shared : Shared
  tasks : List Task

namespace Machine

/-- The start of a run, with a task for each node that waits for nothing. -/
def start (p : Plan) (stopped : Bool) : Machine where
  shared := {
    slots := p.nodes.map fun _ => none
    counters := p.nodes.map PlannedNode.dependencyCount
    failures := []
    cache := []
    stopped
    cancelled := false
    events := [] }
  tasks := (p.nodes.zipIdx.filter fun n => n.1.dependencyCount == 0).reverse.map fun n =>
    ⟨n.2, .waiting⟩

/-- One step of the task at an index.  A task that it spawns comes right behind it. -/
def step (env : Environment) (token : Option CancelToken) (p : Plan) (m : Machine) (index : Nat) :
    Machine :=
  match m.tasks[index]? with
  | none => m
  | some t =>
    let before := m.tasks.take index
    let after := m.tasks.drop (index + 1)
    match p.nodes[t.place]? with
    | none => { m with tasks := before ++ after }
    | some n =>
      let advance := p.advance env token m.shared t.place n t.phase
      { shared := advance.shared
        tasks := before ++ (advance.next.map fun phase => ⟨t.place, phase⟩).toList
          ++ (advance.spawned.map fun place => ⟨place, .waiting⟩).toList ++ after }

/-- Steps of the first task, up to the given number of them, until no task is left. -/
def drain (env : Environment) (token : Option CancelToken) (p : Plan) : Nat → Machine → Machine
  | 0, m => m
  | fuel + 1, m =>
    match m.tasks with
    | [] => m
    | _ :: _ => drain env token p fuel (m.step env token p 0)

/-- The report of a run whose tasks are all done. -/
def report (p : Plan) (m : Machine) : Report where
  outputs := p.collected m.shared.view
  failures := (m.shared.failures.mergeSort fun a b => a.1 ≤ b.1).map Prod.snd
  cancelled := m.shared.cancelled

end Machine

/-- The most steps that a task for a node takes. -/
def PlannedNode.steps (n : PlannedNode) : Nat := 10 + n.arguments.length + n.successors.length

/-- Runs a plan with a task for each node.  No node has more than one task, so that the steps
of all nodes together are enough. -/
def Plan.runParallel (env : Environment) (token : Option CancelToken) (stopped : Bool)
    (p : Plan) : Traced Report :=
  let fuel := (p.nodes.map PlannedNode.steps).foldl (· + ·) 0
  let m := (Machine.start p stopped).drain env token p fuel
  let report := m.report p
  ⟨report, m.shared.events ++ [p.finished report]⟩

end Dataflow

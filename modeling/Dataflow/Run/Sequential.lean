import Dataflow.Run.Report

/-!
# Sequential runs

The nodes run one after the other in the order of the plan.  A node that fails puts out nulls,
and the run goes on; a node that finds the token cancelled ends the run.
-/

namespace Dataflow

/-- How far a sequential run has come. -/
structure Progress where
  /-- The outputs of the nodes that ran, in the order of the plan. -/
  stored : List Outputs
  failures : List NodeError
  cache : Cache
  /-- Whether the token is cancelled. -/
  stopped : Bool
  events : List Event

namespace Progress

/-- The start of a run. -/
def start (stopped : Bool) : Progress := ⟨[], [], [], stopped, []⟩

/-- What is stored at the places of a plan. -/
def slots (s : Progress) : Slots := fun place => s.stored[place]?

/-- The progress after a node. -/
def after (s : Progress) (token : Option CancelToken) (n : PlannedNode) (r : Realized) :
    Progress :=
  let failure := (r.fault?.map n.fault).toList
  { stored := s.stored ++ [r.stored n]
    failures := s.failures ++ failure
    cache := r.cache
    stopped := s.stopped || r.events.any (Event.stops token)
    events := s.events ++ .started n.id n.name :: r.events ++ failure.map .failed }

end Progress

/-- Runs the given nodes, the last of the plan, and says whether the run was cancelled. -/
def Plan.runFrom (env : Environment) (token : Option CancelToken) (p : Plan) (s : Progress) :
    List PlannedNode → Progress × Bool
  | [] => (s, false)
  | n :: rest =>
    if s.stopped then ({ s with events := s.events ++ [.skipped n.id] }, true)
    else
      let realized := env.realize (p.storedValue s.slots) s.cache n
      p.runFrom env token (s.after token n realized) rest

/-- Runs a plan in its order.  The run heeds a token, which may be cancelled before. -/
def Plan.runSequential (env : Environment) (token : Option CancelToken) (stopped : Bool)
    (p : Plan) : Traced Report :=
  let (s, cancelled) := p.runFrom env token (.start stopped) p.nodes
  let report : Report := ⟨p.collected s.slots, s.failures, cancelled⟩
  ⟨report, s.events ++ [p.finished report]⟩

end Dataflow

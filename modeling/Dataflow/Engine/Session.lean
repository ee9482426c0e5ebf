import Dataflow.Engine.Basic

/-!
# Sessions

An engine at work on one graph and one plan at a time.  A session keeps the tokens that were
cancelled, and two records that a report empties: the calls that behaviors recorded, and the
functions that were compiled.
-/

namespace Dataflow

/-- An engine at work. -/
structure Session where
  engine : Engine
  graph : Option Graph
  plan : Option Plan
  /-- The token in use.  Tokens are numbered as they come into use. -/
  token : CancelToken
  cancelled : List CancelToken
  calls : List String
  compiles : List String

namespace Session

/-- A session at its start. -/
def start : Session := ⟨.standard, none, none, 0, [], [], []⟩

instance : Inhabited Session := ⟨start⟩

/-- The session after some events. -/
def note (s : Session) (events : List Event) : Session :=
  { s with
    cancelled := s.cancelled ++ events.filterMap Event.cancels?
    calls := s.calls ++ events.filterMap Event.call?
    compiles := s.compiles ++ events.filterMap Event.compiles? }

/-- The session with empty records. -/
def withoutRecords (s : Session) : Session := { s with calls := [], compiles := [] }

/-! ## Tokens -/

/-- Whether the token in use is cancelled. -/
def isCancelled (s : Session) : Bool := s.cancelled.contains s.token

/-- The session with its token cancelled. -/
def cancel (s : Session) : Session := { s with cancelled := s.token :: s.cancelled }

/-- The session with a new token. -/
def renewToken (s : Session) : Session := { s with token := s.token + 1 }

/-! ## Graphs and plans -/

/-- The session with a graph, if there is one, and what came of it. -/
def adoptGraph (s : Session) (loaded : Traced (Except EngineError Graph)) : Session :=
  match loaded.result with
  | .ok g => { s with graph := some g }
  | .error _ => s

/-- The session with a plan, if there is one. -/
def adoptPlan {ε : Type} (s : Session) : Except ε Plan → Session
  | .ok p => { s with plan := some p }
  | .error _ => s

/-! ## Engines -/

/-- The session with a behavior in the registry. -/
def register (s : Session) (key : String) (b : Behavior) : Session :=
  { s with engine := { s.engine with registry := s.engine.registry.insert key b } }

/-- The session with an empty registry. -/
def clearRegistry (s : Session) : Session :=
  { s with engine := { s.engine with registry := .empty } }

/-- The session with other settings. -/
def configure (s : Session) (config : Config) : Session :=
  { s with engine := { s.engine with config } }

/-! ## Running -/

/-- Runs a plan, heeding the token in use or none. -/
def run (s : Session) (heeds : Bool) (p : Plan) : Traced Report :=
  if heeds then s.engine.run (some s.token) s.isCancelled p else s.engine.run none false p

/-- Runs the plan of a graph. -/
def runGraph (s : Session) (heeds : Bool) (g : Graph) : Traced (Except EngineError Report) :=
  Engine.withPlan g fun p =>
    let run := s.run heeds p
    ⟨.ok run.result, run.events⟩

/-- What a backend makes of a plan, heeding the token in use or none. -/
def execute (s : Session) (heeds : Bool) (b : Backend) (p : Plan) :
    Traced (Except EngineError BackendOutput) :=
  if heeds then s.engine.execute (some s.token) s.isCancelled p b
  else s.engine.execute none false p b

/-- Calls a registered behavior. -/
def invoke (s : Session) (key : String) (args : Arguments) : Option (Traced (Outcome Value)) :=
  (s.engine.registry.find? key).map fun b =>
    let response := b args
    ⟨response.outcome, response.effects.map .effect⟩

end Session

end Dataflow

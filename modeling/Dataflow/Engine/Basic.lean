import Dataflow.Engine.Config
import Dataflow.Graph.Description
import Dataflow.Plan.Artifact
import Dataflow.Run.Parallel
import Dataflow.Run.Sequential
import Dataflow.Script.Evaluation

/-!
# The engine

An engine has a registry, a compiler and settings.  It makes plans of graphs, runs them, and
writes programs for them; every step tells its events.
-/

namespace Dataflow

/-- An engine. -/
structure Engine where
  registry : Registry
  compiler : Compiler
  config : Config

/-- What executes a plan. -/
inductive Backend where
  /-- Runs the nodes. -/
  | interpreter
  /-- Writes a program. -/
  | generator
deriving DecidableEq, Repr

/-- The backend that a tree names. -/
def Backend.ofJson? (j : Json) : Option Backend :=
  match j.choice? with
  | some "interpreter" => some interpreter
  | some "generator" => some generator
  | _ => none

/-- What a backend leaves. -/
inductive BackendOutput where
  | report (r : Report)
  | program (text : String)

namespace Graph

/-- The graph with the given parts, or their first fault. -/
def ofPartsTraced (nodes : List Node) (connections : List Connection) :
    Traced (Except EngineError Graph) where
  result := (ofParts nodes connections).mapError .malformed
  events := (undeclaredInputs nodes connections).map .undeclaredInput

/-- The graph of a text. -/
def ofTextTraced (text : String) : Traced (Except EngineError Graph) :=
  match Description.partsOfText text with
  | .error fault => ⟨.error (.malformed fault), []⟩
  | .ok (nodes, connections) => ofPartsTraced nodes connections

/-- The events of scheduling a graph. -/
def schedulingEvents (g : Graph) : List Event := (g.idsAt g.scheduled.1).map .scheduled

/-- The plan of a graph. -/
def planTraced (g : Graph) : Traced (Except EngineError Plan) :=
  match g.plan with
  | .error c => ⟨.error (.cycle c), g.schedulingEvents⟩
  | .ok p => ⟨.ok p, g.schedulingEvents ++ [.planned p.size]⟩

end Graph

namespace Engine

/-- An engine with nothing registered and the standard settings, for scripts. -/
def standard : Engine := ⟨.empty, Script.compile, .standard⟩

instance : Inhabited Engine := ⟨standard⟩

/-- What the nodes of a run draw on. -/
def environment (e : Engine) : Environment := ⟨e.registry, e.compiler, e.config.policy⟩

/-- Runs a plan.  The number of workers makes no difference to the report. -/
def run (e : Engine) (token : Option CancelToken) (stopped : Bool) (p : Plan) : Traced Report :=
  match e.config.mode with
  | .sequential => p.runSequential e.environment token stopped
  | .parallel _ => p.runParallel e.environment token stopped

/-- The program of a plan as code. -/
def generate (e : Engine) (p : Plan) : Traced (Except EngineError String) where
  result := ((p.program e.registry).mapError .node).map Program.text
  events := (p.callable e.registry).map fun n => .emitted n.id n.name

/-- What a backend makes of a plan. -/
def execute (e : Engine) (token : Option CancelToken) (stopped : Bool) (p : Plan) :
    Backend → Traced (Except EngineError BackendOutput)
  | .interpreter =>
    let run := e.run token stopped p
    ⟨.ok (.report run.result), run.events⟩
  | .generator =>
    let program := e.generate p
    ⟨program.result.map .program, program.events⟩

/-- What becomes of the plan of a graph. -/
def withPlan {α : Type} (g : Graph) (next : Plan → Traced (Except EngineError α)) :
    Traced (Except EngineError α) :=
  let planned := g.planTraced
  match planned.result with
  | .error e => ⟨.error e, planned.events⟩
  | .ok p =>
    let after := next p
    ⟨after.result, planned.events ++ after.events⟩

end Engine

end Dataflow

import Dataflow.CommandLine.Help
import Dataflow.Engine.Basic

/-!
# Executing requests

What the program does for a request.  Files are reached through `Files`, so that the same
commands work on a disk and on any other store; everything else is computed.
-/

namespace Dataflow.CommandLine

/-- A store of files. -/
structure Files (m : Type → Type) where
  read : String → m (Option ByteArray)
  /-- Writes a file, and says whether it could. -/
  write : String → ByteArray → m Bool

/-- How the program ends: its exit code and what it wrote. -/
structure Ending where
  code : Nat
  out : String
  err : String

namespace Ending

/-- The end of a request that is done. -/
def done (out : String) : Ending := ⟨0, out, ""⟩

/-- The end with an error. -/
def failed (message : String) : Ending := ⟨1, "", "\nError: " ++ message ++ "\n"⟩

end Ending

/-- A step that may end the program. -/
abbrev Step (m : Type → Type) (α : Type) : Type := ExceptT Ending m α

variable {m : Type → Type} [Monad m]

/-- A result, or the end with the message of its error. -/
def orFail {ε α : Type} (message : ε → String) : Except ε α → Step m α
  | .ok a => pure a
  | .error e => throw (.failed (message e))

/-- A part that has to be there. -/
def orFailWith {α : Type} (message : String) : Option α → Step m α
  | some a => pure a
  | none => throw (.failed message)

/-- The text of a file; `kind` says what the file is for. -/
def readText (files : Files m) (kind path : String) : Step m String := do
  let bytes ← files.read path
  orFailWith ("Failed to read " ++ kind ++ " file '" ++ path ++ "': not a readable text")
    (bytes.bind fun b => String.fromUTF8? b)

/-- The graph of a file. -/
def loadGraph (files : Files m) (path : String) : Step m Graph := do
  let text ← readText files "graph" path
  orFail EngineError.message (Graph.ofTextTraced text).result

/-- The plan of the graph of a file. -/
def planGraph (files : Files m) (path : String) : Step m Plan := do
  orFail EngineError.message (← loadGraph files path).planTraced.result

/-- The plan that a file has. -/
def loadPlan (files : Files m) (path : String) : Step m Plan := do
  match ← files.read path with
  | none => throw (.failed PlanError.file.message)
  | some bytes => orFail PlanError.message (Plan.load bytes.toList)

/-- Writes a file. -/
def writeFile (files : Files m) (path : String) (bytes : ByteArray) (message : String) :
    Step m Unit := do
  if !(← files.write path bytes) then throw (.failed message)

/-- The settings for a run: those of a file, and what the options say instead. -/
def configOf (files : Files m) (path : Option String) (workers : Option Nat) (lenient : Bool) :
    Step m Config := do
  let config ← match path with
    | none => pure .standard
    | some path => do
      let text ← readText files "config" path
      orFailWith "Failed to parse config: not a configuration" (Config.ofText? text)
  return {
    mode := (workers.map Mode.parallel).getD config.mode
    policy := if lenient then .lenient else config.policy }

/-- The outputs of a run as JSON. -/
def outputsJson (outputs : Dict Outputs) : Json :=
  .object (outputs.toList.map fun o => (o.1, .object (Value.fieldsToJson o.2)))

/-- The end of a run of a plan. -/
def runEnding (p : Plan) (run : Traced Report) : Ending :=
  let report := run.result
  let failures := report.failures.map fun e => "  -> " ++ e.message
  let summary := "Ran " ++ toString report.outputs.size ++ " of " ++ toString p.size
    ++ " nodes (" ++ toString report.failures.length ++ " failed)"
  { code := if report.failures.isEmpty then 0 else 2
    out := linesText (run.events.filterMap Event.printed? ++ [(outputsJson report.outputs).pretty])
    err := linesText (failures ++ [summary]) }

/-- Does what a request asks for. -/
def Request.perform (tool : Tool) (files : Files m) : Request → Step m Ending
  | order graph => do
    let plan ← planGraph files graph
    return .done (String.join (plan.order.map (· ++ "\n")))
  | generate graph output => do
    let g ← loadGraph files graph
    let text ← orFail (fun e => "Generation failed: " ++ e.message)
      (Engine.withPlan g Engine.standard.generate).result
    match output with
    | none => return .done text
    | some path =>
      writeFile files path text.toUTF8 ("Failed to write '" ++ path ++ "': not writable")
      return .done ""
  | run file fromPlan workers lenient config => do
    let config ← configOf files config workers lenient
    let plan ← if fromPlan then loadPlan files file else planGraph files file
    return runEnding plan ({ Engine.standard with config }.run none false plan)
  | plan graph output => do
    let plan ← planGraph files graph
    let bytes ← orFail PlanError.message plan.save
    writeFile files output bytes.toByteArray PlanError.file.message
    return ⟨0, "", "Saved plan for " ++ toString plan.size ++ " nodes to '" ++ output ++ "'\n"⟩
  | help topic => return .done (helpText tool topic)
  | version => return .done (versionText tool)

/-- Does what the arguments ask for.  Arguments that make no request end with code two. -/
def execute (tool : Tool) (files : Files m) (args : List String) : m Ending := do
  match Request.ofArguments? args with
  | none => return ⟨2, "", linesText ["Usage: " ++ tool.program ++ " <COMMAND>"]⟩
  | some request =>
    match ← (request.perform tool files).run with
    | .ok ending => return ending
    | .error ending => return ending

end Dataflow.CommandLine

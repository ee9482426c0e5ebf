import Dataflow.Error

/-!
# Events

What the engine notes while it works: the steps of checking, scheduling and running, the
compilations, and the effects of behaviors.  Some events have an `Entry` in the log, with a
level, a sentence and named fields.
-/

namespace Dataflow

/-- Something that happens. -/
inductive Event where
  /-- A connection leads to an input that its target does not declare. -/
  | undeclaredInput (place : UndeclaredInput)
  /-- A node gets its place in the order. -/
  | scheduled (node : String)
  /-- A graph with a number of nodes is planned. -/
  | planned (nodes : Nat)
  /-- The line of a node is written into a program. -/
  | emitted (node name : String)
  | started (node name : String)
  /-- A function with a name is compiled. -/
  | compiled (name : String)
  | effect (e : Effect)
  | failed (error : NodeError)
  /-- A node finds the run cancelled. -/
  | skipped (node : String)
  | finished (nodes completed failed : Nat) (cancelled : Bool)
deriving DecidableEq

/-- A result with the events on the way to it. -/
structure Traced (α : Type) where
  result : α
  events : List Event

/-- The weight of a log entry. -/
inductive LogLevel where
  | debug
  | info
  | warning
deriving DecidableEq, Repr

/-- The name of a level in the log. -/
def LogLevel.name : LogLevel → String
  | debug => "DEBUG"
  | info => "INFO"
  | warning => "WARN"

/-- An entry of the log. -/
structure LogEntry where
  level : LogLevel
  message : String
  fields : List (String × String)
deriving DecidableEq

namespace Event

/-- The log entry of an event, if it has one. -/
def logEntry? : Event → Option LogEntry
  | undeclaredInput place => some {
      level := .warning
      message := "connection targets an undeclared input; keeping it as a dependency only"
      fields := [("node_id", place.node), ("input", place.input)] }
  | scheduled node => some ⟨.debug, "scheduled", [("node_id", node)]⟩
  | planned nodes => some ⟨.info, "planned graph", [("nodes", toString nodes)]⟩
  | emitted node name =>
    some ⟨.debug, "emitting call", [("node_id", node), ("node_name", name)]⟩
  | started node name =>
    some ⟨.debug, "running node", [("node_id", node), ("node_name", name)]⟩
  | failed error => some {
      level := .warning
      message := "node failed"
      fields := [("node_id", error.id), ("node_name", error.name), ("error", error.message)] }
  | skipped node => some ⟨.debug, "cancelled before dispatch", [("node_id", node)]⟩
  | finished nodes ran faulty cancelled => some {
      level := .info
      message := "run finished"
      fields := [("nodes", toString nodes), ("completed", toString ran),
        ("failed", toString faulty), ("cancelled", if cancelled then "true" else "false")] }
  | compiled _ | effect _ => none

/-- The line that an event prints. -/
def printed? : Event → Option String
  | effect (.print line) => some line
  | _ => none

/-- The entry that an event leaves in the record of calls. -/
def call? : Event → Option String
  | effect (.record entry) => some entry
  | _ => none

/-- The token that an event cancels. -/
def cancels? : Event → Option CancelToken
  | effect (.cancel token) => some token
  | _ => none

/-- The name of the function that an event compiles. -/
def compiles? : Event → Option String
  | compiled name => some name
  | _ => none

end Event

end Dataflow

import Dataflow.Behavior
import Dataflow.CommandLine.Execution
import Dataflow.CommandLine.Help
import Dataflow.CommandLine.Request
import Dataflow.Decimal.Binary
import Dataflow.Decimal.Notation
import Dataflow.Decimal.Reading
import Dataflow.Decimal.Shortest
import Dataflow.Dict
import Dataflow.Engine.Basic
import Dataflow.Engine.Config
import Dataflow.Engine.Session
import Dataflow.Error
import Dataflow.Event
import Dataflow.Graph.Basic
import Dataflow.Graph.Description
import Dataflow.Json.Basic
import Dataflow.Json.Reader
import Dataflow.Json.Record
import Dataflow.Main
import Dataflow.Plan.Artifact
import Dataflow.Plan.Basic
import Dataflow.Plan.Bytes
import Dataflow.Program.Basic
import Dataflow.Program.Generation
import Dataflow.Program.Literal
import Dataflow.Program.Variable
import Dataflow.Proofs.Decimal.Integers
import Dataflow.Proofs.Decimal.Rounding
import Dataflow.Proofs.Decimal.Shortest
import Dataflow.Proofs.Dict
import Dataflow.Proofs.Engine.Refusal
import Dataflow.Proofs.Graph.Acceptance
import Dataflow.Proofs.Graph.Description
import Dataflow.Proofs.Graph.Ends
import Dataflow.Proofs.Graph.Ids
import Dataflow.Proofs.Graph.Position
import Dataflow.Proofs.Graph.Respelling
import Dataflow.Proofs.Json.Compact
import Dataflow.Proofs.Json.Number
import Dataflow.Proofs.Plan.Bytes
import Dataflow.Proofs.Plan.Links
import Dataflow.Proofs.Plan.Literals
import Dataflow.Proofs.Plan.Planning
import Dataflow.Proofs.Plan.Saving
import Dataflow.Proofs.Program.Execution
import Dataflow.Proofs.Program.Grammar
import Dataflow.Proofs.Program.Literal
import Dataflow.Proofs.Program.Refinement
import Dataflow.Proofs.Program.Resolution
import Dataflow.Proofs.Program.Variable
import Dataflow.Proofs.Program.Wiring
import Dataflow.Proofs.Run.Agreement
import Dataflow.Proofs.Run.AnyOutcome
import Dataflow.Proofs.Run.Arguments
import Dataflow.Proofs.Run.Caching
import Dataflow.Proofs.Run.Calls
import Dataflow.Proofs.Run.Cancellation
import Dataflow.Proofs.Run.Control
import Dataflow.Proofs.Run.FailSoft
import Dataflow.Proofs.Run.Interleaving
import Dataflow.Proofs.Run.Interrupted
import Dataflow.Proofs.Run.Isolation
import Dataflow.Proofs.Run.Loaded
import Dataflow.Proofs.Run.Outcome
import Dataflow.Proofs.Run.Partial
import Dataflow.Proofs.Run.Rearrangement
import Dataflow.Proofs.Run.Sequential
import Dataflow.Proofs.Run.Settled
import Dataflow.Proofs.Run.Shapes
import Dataflow.Proofs.Run.Tally
import Dataflow.Proofs.Run.Task
import Dataflow.Proofs.Run.Termination
import Dataflow.Proofs.Run.Unprovided
import Dataflow.Proofs.Run.World
import Dataflow.Proofs.Schedule.Driver
import Dataflow.Proofs.Schedule.HeldBack
import Dataflow.Proofs.Schedule.Order
import Dataflow.Proofs.Schedule.Queue
import Dataflow.Proofs.Schedule.Stable
import Dataflow.Proofs.Script.Annotation
import Dataflow.Proofs.Script.Blanks
import Dataflow.Proofs.Script.Comparison
import Dataflow.Proofs.Script.Content
import Dataflow.Proofs.Script.Dedent
import Dataflow.Proofs.Script.Definition
import Dataflow.Proofs.Script.Equality
import Dataflow.Proofs.Script.Exact
import Dataflow.Proofs.Script.Grammar
import Dataflow.Proofs.Script.Inversion
import Dataflow.Proofs.Script.Literal
import Dataflow.Proofs.Script.Locality
import Dataflow.Proofs.Script.Margin
import Dataflow.Proofs.Script.Overflow
import Dataflow.Proofs.Script.Reading
import Dataflow.Proofs.Script.Rendering
import Dataflow.Proofs.Script.Reread
import Dataflow.Proofs.Script.Restating
import Dataflow.Proofs.Script.RoundTrip
import Dataflow.Proofs.Script.Spelling
import Dataflow.Proofs.Text.Lines
import Dataflow.Proofs.Value.Alternatives
import Dataflow.Proofs.Value.Json
import Dataflow.Proofs.Value.Parts
import Dataflow.Proofs.Value.Sameness
import Dataflow.Run.Parallel
import Dataflow.Run.Realization
import Dataflow.Run.Report
import Dataflow.Run.Sequential
import Dataflow.Schedule
import Dataflow.Script.Builtin
import Dataflow.Script.Definition
import Dataflow.Script.Evaluation
import Dataflow.Script.Expr
import Dataflow.Script.Fault
import Dataflow.Script.Grammar
import Dataflow.Script.Operation
import Dataflow.Script.Token
import Dataflow.Text.Classes
import Dataflow.Text.Escaped
import Dataflow.Text.Lines
import Dataflow.Value.Basic
import Dataflow.Value.Json

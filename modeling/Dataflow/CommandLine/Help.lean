import Dataflow.CommandLine.Request
import Dataflow.Text.Lines

/-!
# Help

What the command line says about itself.
-/

namespace Dataflow.CommandLine

/-- How the program is called, and what it calls itself. -/
structure Tool where
  program : String
  name : String
  version : String

/-- What a command does. -/
def Command.purpose : Command → String
  | order => "Print node ids in execution order"
  | generate => "Generate the equivalent Python program"
  | run => "Interpret the graph and print every node's outputs as JSON"
  | plan => "Resolve the graph and save the execution plan artifact"
  | help => "Print this message or the help of the given subcommand(s)"

/-- What the operand of a command is. -/
def Command.operand : Command → String
  | run => "Path to the graph description JSON file, or a plan with --from-plan"
  | order | generate | plan | help => "Path to the graph description JSON file"

/-- The option as it is written, with the place of its value. -/
def Setting.usage (s : Setting) : String :=
  let value := if s.takesValue then " <" ++ s.long.toUpper ++ ">" else ""
  match s.short? with
  | some c => "-" ++ c.toString ++ ", --" ++ s.long ++ value
  | none => "    --" ++ s.long ++ value

/-- What an option of a command does. -/
def Setting.purpose (command : Command) : Setting → String
  | output =>
    match command with
    | .plan => "Where to write the bincode plan [default: " ++ standardPlanFile ++ "]"
    | _ => "Write the program here instead of stdout"
  | fromPlan => "Treat the input as a plan artifact written by `plan`"
  | parallel => "Run ready nodes concurrently on this many worker threads"
  | lenient => "Accept any mapping for multi-output nodes"
  | config => "JSON engine config; flags override its values"

/-- Two columns, the second two blanks behind the longest entry of the first. -/
def columns (rows : List (String × String)) : List String :=
  let width := (rows.map fun r => r.1.length).foldl max 0
  rows.map fun r =>
    "  " ++ r.1 ++ String.ofList (List.replicate (width - r.1.length) ' ') ++ "  " ++ r.2

/-- The option that asks for help. -/
def helpRow : String × String := ("-h, --help", "Print help")

/-- Help on a command. -/
def commandHelp (tool : Tool) (c : Command) : List String :=
  let options := c.settings.map fun s => (s.usage, s.purpose c)
  let usage := if options.isEmpty then "" else "[OPTIONS] "
  match c with
  | .help =>
    [c.purpose, "", "Usage: " ++ tool.program ++ " help [COMMAND]...", "", "Arguments:"]
      ++ columns [("[COMMAND]...", "Print help for the subcommand(s)")]
  | c =>
    [c.purpose, "", "Usage: " ++ tool.program ++ " " ++ c.name ++ " " ++ usage ++ "<GRAPH>", "",
      "Arguments:"] ++ columns [("<GRAPH>", c.operand)] ++ ["", "Options:"]
      ++ columns (options ++ [helpRow])

/-- Help on all commands. -/
def generalHelp (tool : Tool) : List String :=
  let commands := [Command.order, .generate, .run, .plan, .help].map fun c => (c.name, c.purpose)
  ["Orders, runs, or generates a program from a dataflow graph description", "",
    "Usage: " ++ tool.program ++ " <COMMAND>", "", "Commands:"] ++ columns commands
    ++ ["", "Options:"] ++ columns [helpRow, ("-V, --version", "Print version")]

/-- Lines as text. -/
def linesText (lines : List String) : String := Text.joinWith "\n" lines ++ "\n"

/-- Help on a command, or on all of them. -/
def helpText (tool : Tool) : Option Command → String
  | some c => linesText (commandHelp tool c)
  | none => linesText (generalHelp tool)

/-- The name and the version. -/
def versionText (tool : Tool) : String := linesText [tool.name ++ " " ++ tool.version]

end Dataflow.CommandLine

import Dataflow.Text.Classes
import Dataflow.Decimal.Notation

/-!
# Requests

What the command line asks for.  The first argument names a command; after it come one operand,
the file, and options in any order.  An option with a value takes it from the same argument
or from the next one, which then must not look like an option; no option may be given twice,
and after `--` everything is an operand.  The short options for help and for the version take
effect whatever follows them in the same argument; the long ones refuse an attached value.
-/

namespace Dataflow.CommandLine

/-- The commands. -/
inductive Command where
  | order
  | generate
  | run
  | plan
  | help
deriving DecidableEq, Repr

/-- The name of a command. -/
def Command.name : Command → String
  | order => "order"
  | generate => "generate"
  | run => "run"
  | plan => "plan"
  | help => "help"

/-- The command with a name. -/
def Command.ofName? (name : String) : Option Command :=
  [order, generate, run, plan, help].find? fun c => c.name = name

/-- An option of a command. -/
inductive Setting where
  | output
  | fromPlan
  | parallel
  | lenient
  | config
deriving DecidableEq, Repr

namespace Setting

/-- The long name. -/
def long : Setting → String
  | output => "output"
  | fromPlan => "from-plan"
  | parallel => "parallel"
  | lenient => "lenient"
  | config => "config"

/-- The short name, if there is one. -/
def short? : Setting → Option Char
  | output => some 'o'
  | config => some 'c'
  | fromPlan | parallel | lenient => none

/-- Whether the option has a value. -/
def takesValue : Setting → Bool
  | output | parallel | config => true
  | fromPlan | lenient => false

end Setting

/-- The options of a command. -/
def Command.settings : Command → List Setting
  | generate | plan => [.output]
  | run => [.fromPlan, .parallel, .lenient, .config]
  | order | help => []

/-- What is asked for. -/
inductive Request where
  | order (graph : String)
  | generate (graph : String) (output : Option String)
  | run (file : String) (fromPlan : Bool) (workers : Option Nat) (lenient : Bool)
      (config : Option String)
  | plan (graph output : String)
  /-- Help on a command, or on all of them. -/
  | help (topic : Option Command)
  | version
deriving DecidableEq, Repr

/-! ## Reading arguments -/

/-- What the arguments of a command give. -/
structure Given where
  operand : Option String
  settings : List (Setting × String)

/-- Why the arguments are not read to their end. -/
inductive Stop where
  /-- They ask for help. -/
  | help
  /-- They are not those of the command. -/
  | refused
deriving DecidableEq, Repr

/-- An argument by its form. -/
inductive Form where
  | operand (text : String)
  /-- Two dashes, which end the options. -/
  | separator
  /-- A long name, and a value after an equals sign. -/
  | long (name : String) (value : Option String)
  /-- A short name, and what follows it in the same argument. -/
  | short (name : Char) (value : Option String)

/-- The form of an argument.  A single dash is an operand. -/
def formOf (arg : String) : Form :=
  match arg.toList with
  | ['-', '-'] => .separator
  | '-' :: '-' :: cs =>
    match cs.dropWhile (· ≠ '=') with
    | [] => .long (String.ofList cs) none
    | _ :: value => .long (String.ofList (cs.takeWhile (· ≠ '='))) (some (String.ofList value))
  | '-' :: c :: [] => .short c none
  | '-' :: c :: '=' :: value => .short c (some (String.ofList value))
  | '-' :: c :: value => .short c (some (String.ofList value))
  | _ => .operand arg

namespace Given

/-- What is given with an operand more, of which there is only one, and not an empty one. -/
def addOperand (given : Given) (text : String) : Except Stop Given :=
  if given.operand.isSome || text.isEmpty then .error .refused
  else .ok { given with operand := some text }

/-- What is given with some operands more. -/
def addOperands (given : Given) (texts : List String) : Except Stop Given :=
  texts.foldlM addOperand given

/-- What is given with an option more.  No option comes twice. -/
def addSetting (given : Given) (setting : Setting) (value : String) : Except Stop Given :=
  if given.settings.any fun s => s.1 = setting then .error .refused
  else .ok { given with settings := given.settings ++ [(setting, value)] }

/-- The value of an option. -/
def value? (given : Given) (setting : Setting) : Option String :=
  (given.settings.find? fun s => s.1 = setting).map Prod.snd

/-- Whether an option is given. -/
def has (given : Given) (setting : Setting) : Bool := (given.value? setting).isSome

end Given

/-- A number of workers: digits, perhaps after a plus sign, for at most 64 bits. -/
def workers? (text : String) : Option Nat :=
  let digits := match text.toList with
    | '+' :: cs => cs
    | cs => cs
  let n := Decimal.digitsValue digits
  if digits.isEmpty || !digits.all Text.isDigit || Decimal.largestWord < n then none else some n

/-- Whether a text can be the value of an option: paths are not empty, and workers have a
number. -/
def Setting.accepts (setting : Setting) (value : String) : Bool :=
  match setting with
  | parallel => (workers? value).isSome
  | output | config => !value.isEmpty
  | fromPlan | lenient => true

/-- Whether an argument can be a value that stands by itself. -/
def isOperand (arg : String) : Bool :=
  match formOf arg with
  | .operand _ => true
  | _ => false

/-- Reads the arguments of a command with the given options. -/
def readArguments (settings : List Setting) (given : Given) : List String → Except Stop Given
  | [] => .ok given
  | arg :: rest => do
    let found ← match formOf arg with
      | .operand _ | .separator => pure none
      | .long name value =>
        if name = "help" then throw (if value.isSome then .refused else .help)
        else pure (some (settings.find? fun s => s.long = name, value))
      | .short name value =>
        if name = 'h' then throw .help
        else pure (some (settings.find? fun s => s.short? = some name, value))
    match found with
    | none =>
      if isOperand arg then readArguments settings (← given.addOperand arg) rest
      else given.addOperands rest
    | some (none, _) => throw .refused
    | some (some setting, attached) =>
      if setting.takesValue then
        match attached, rest with
        | some value, rest =>
          if setting.accepts value then
            readArguments settings (← given.addSetting setting value) rest
          else throw .refused
        | none, value :: rest =>
          if isOperand value && setting.accepts value then
            readArguments settings (← given.addSetting setting value) rest
          else throw .refused
        | none, [] => throw .refused
      else if attached.isSome then throw .refused
      else readArguments settings (← given.addSetting setting "") rest

/-! ## Requests -/

/-- The file to which a plan goes if no other is given. -/
def standardPlanFile : String := "graph.plan"

/-- The request that a command with its arguments makes. -/
def requestOf (command : Command) (operand : String) (given : Given) : Request :=
  match command with
  | .order => .order operand
  | .generate => .generate operand (given.value? .output)
  | .run =>
    .run operand (given.has .fromPlan) ((given.value? .parallel).bind workers?)
      (given.has .lenient) (given.value? .config)
  | .plan => .plan operand ((given.value? .output).getD standardPlanFile)
  | .help => .help none

/-- The request for help on what the arguments name. -/
def helpRequest? : List String → Option Request
  | [] => some (.help none)
  | [name] => (Command.ofName? name).map fun c => .help (some c)
  | _ => none

/-- The request that the arguments make, if they make one. -/
def Request.ofArguments? : List String → Option Request
  | [] => none
  | arg :: rest =>
    match formOf arg with
    | .short 'h' _ | .long "help" none => some (.help none)
    | .short 'V' _ | .long "version" none => some .version
    | .short _ _ | .long _ _ | .separator => none
    | .operand name =>
      match Command.ofName? name with
      | none => none
      | some .help => helpRequest? rest
      | some command =>
        match readArguments command.settings ⟨none, []⟩ rest with
        | .ok given => given.operand.map fun operand => requestOf command operand given
        | .error .help => some (.help (some command))
        | .error .refused => none

end Dataflow.CommandLine

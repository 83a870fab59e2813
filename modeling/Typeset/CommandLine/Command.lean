import Typeset.CommandLine.Host

/-!
The commands. What they produce is printed or written only when nothing is left that
could go wrong before it. What went wrong is logged, and the command ends with the
code 1.
-/

set_option autoImplicit false

namespace Typeset.CommandLine

/-- How a command ends. The last three are failures that the command does not expect. -/
inductive Ending where
  | exited (code : Nat)
  | misused (command : String) (misuse : Misuse)
  | failed (failure : Failure)
  | faulted (fault : FileFault)
  | crashed (crash : Crash)
  deriving DecidableEq

namespace Ending

/-- The code for the caller. -/
def code : Ending → Nat
  | .exited code => code
  | .misused _ _ => 2
  | .failed _ | .faulted _ | .crashed _ => 1

/-- What is written besides the log. -/
def complaint : Ending → String
  | .exited _ => ""
  | .misused command misuse => s!"python . {command}: error: {misuse.message}\n"
  | .failed failure => failure.message ++ "\n"
  | .faulted fault => fault.message ++ "\n"
  | .crashed crash => crash.message ++ "\n"

/-- An obstacle where none was expected. -/
def ofObstacle : Obstacle → Ending
  | .fault fault => .faulted fault
  | .crash crash => .crashed crash

end Ending

def helpLines : List String :=
  [ "Usage: python . \x7bcommand\x7d [args]",
    "",
    "Commands:",
    "  render      Format a JSON document for a target width",
    "  formatters  List registered document formatters",
    "  demo        Render built-in samples at several widths",
    "  env         Show configuration variables",
    "  test        Run pytest (--unit for unit tests only)",
    "",
    "Examples:",
    "  python . render sexpr expr.json --width 40",
    "  cat tree.json | python . render tree - -w 20",
    "  python . demo c --widths 60,30",
    "  python . env --category layout" ]

def helpText : String := String.join (helpLines.map fun line => line ++ "\n")

section Commands

variable {m : Type → Type} [Monad m] [Host m]

def read (source : Source) : StateT Session m (Except Obstacle String) :=
  liftM (Host.read source : m _)

def put (target : Target) (text : String) : StateT Session m (Except Obstacle Unit) :=
  liftM (Host.put target text : m _)

/-- Runs an action of the session. -/
def perform {α : Type} (action : Action α) : StateT Session m (Except Failure α) :=
  fun session => pure (action.run session)

def log (level : Int) (message : String) : StateT Session m Unit := do
  let _ ← perform (Action.record "cli" level message)

/-- Logs an error and ends with the code 1. -/
def giveUp (message : String) : StateT Session m Ending := do
  log Level.error message
  return .exited 1

/-- Prints a text and ends with a code. -/
def printAndEnd (text : String) (code : Nat) : StateT Session m Ending := do
  match ← put .output text with
  | .error obstacle => return .ofObstacle obstacle
  | .ok () => return .exited code

def showHelp (code : Nat) : StateT Session m Ending := printAndEnd helpText code

/-- Writes a rendering to a file or prints it, ending with a line feed. -/
def deliverText (target : Target) (text : String) : StateT Session m Ending := do
  match ← put target (text ++ "\n") with
  | .error obstacle => return .ofObstacle obstacle
  | .ok () => do
      if let .file path := target then log Level.info s!"Output saved to {path}"
      return .exited 0

/-- Runs a formatting, or what is left of it when it breaks off. -/
def formatWithin (breakdown : Option Breakdown) (formatting : Action Rendering) :
    Action (Except Crash Rendering) := do
  match breakdown with
  | none => return .ok (← formatting)
  | some ⟨crash, records⟩ => do
      modify fun session => session.logged records
      return .error crash

/-- Formats a text. A request to verify choices holds for this text alone. -/
def renderText (request : RenderRequest) (formatter : PreparedFormatter) (text : String) :
    StateT Session m Ending := do
  let session ← get
  let width := session.environment.width request.width
  let enabled := if request.verify then some true else none
  let formatting := formatWithin (Host.breakdown? m session request text)
    (formatter.format text width request.column)
  match ← perform (Action.verifying enabled formatting) with
  | .error (.invalid reason) =>
      giveUp s!"Invalid {formatter.name} document:\n{Host.explain m text reason}"
  | .error failure => giveUp s!"Layout error: {failure.message}"
  | .ok (.error crash) => return .crashed crash
  | .ok (.ok rendering) => do
      if rendering.hasOverflow then
        let count := rendering.overflowingLines.length
        log Level.warning s!"{count} line(s) exceed width {width}"
      deliverText request.target rendering.text

/-- Reads a document and formats it. -/
def render (request : RenderRequest) : StateT Session m Ending := do
  match ← perform (Action.formatter request.formatter) with
  | .error failure => giveUp failure.message
  | .ok formatter =>
      match ← read request.source with
      | .error (.fault fault) => giveUp s!"Cannot read {request.path}: {fault.message}"
      | .error (.crash crash) => return .crashed crash
      | .ok text => renderText request formatter text

/-- Names in a column of their own, with the descriptions of the formatters. -/
def listingLine (width : Nat) (name description : String) : String :=
  let gap := String.ofList (List.replicate (width - name.length) ' ')
  s!"  {name}{gap}  {description}\n"

def listFormatters : StateT Session m Ending := do
  let registry := (← get).registry
  let width := (registry.names.map String.length).foldl max 0
  let entries := registry.names.filterMap fun name => (registry.find? name).map (name, ·)
  printAndEnd ("Available formatters:\n" ++ String.join (entries.map fun (name, formatter) =>
    listingLine width name formatter.description)) 0

/-- The sample of a formatter at every width, each below a line that names both. -/
def demoBlocks (name : String) (widths : List Int) : Action (List String) := do
  let formatter ← Action.formatter name
  widths.mapM fun width => do
    let rendering ← formatter.render formatter.sample width 0
    return s!"# {name} @ width {width}\n{rendering.text}"

/-- Shows samples of one formatter or of all. An empty name stands for all, too. -/
def demo (request : DemoRequest) : StateT Session m Ending := do
  let registered := (← get).registry.names
  let names := match request.formatter with
    | none => registered
    | some name => if name.isEmpty then registered else [name]
  match ← perform (names.mapM fun name => demoBlocks name request.widths) with
  | .error (.unknownFormatter name available) =>
      giveUp (Failure.unknownFormatter name available).message
  | .error failure => return .failed failure
  | .ok blocks => printAndEnd (String.intercalate "\n---\n" blocks.flatten ++ "\n") 0

/-- The value of a setting as it is shown in the report. -/
def shownValue (setting : Setting) (value : setting.type.Value) : String :=
  (setting.type.toJson value).shown

def settingReport (environment : Environment) (setting : Setting) : String :=
  let value := shownValue setting (environment.setting setting)
  let default := shownValue setting setting.default
  s!"\n  {setting.variableName} = {value}\n" ++
    s!"    {setting.description}\n" ++
    s!"    default: {default}, category: {setting.category.name}\n"

def report (request : EnvironmentRequest) : StateT Session m Ending := do
  let environment := (← get).environment
  printAndEnd ("Environment Report\n" ++
    String.join ((Setting.listed request.categories).map (settingReport environment))) 0

/-- Reads the arguments of a command and runs it. -/
def withArguments {Values : Type}
    (command : String)
    (grammar : Grammar Values)
    (defaults : Values)
    (arguments : List String)
    (run : Values → StateT Session m Ending) :
    StateT Session m Ending :=
  match grammar.read defaults arguments with
  | .error .help => showHelp 0
  | .error (.misuse misuse) => return .misused command misuse
  | .ok values => run values

/-- The command of a name. -/
def command? (name : String) : Option (List String → StateT Session m Ending) :=
  match name with
  | "render" => some fun arguments =>
      withArguments name RenderRequest.grammar RenderRequest.defaults arguments render
  | "formatters" => some fun arguments =>
      withArguments name emptyGrammar () arguments fun _ => listFormatters
  | "demo" => some fun arguments =>
      withArguments name DemoRequest.grammar DemoRequest.defaults arguments demo
  | "env" => some fun arguments =>
      withArguments name EnvironmentRequest.grammar EnvironmentRequest.defaults arguments report
  | _ => none

/-- Sets the log up as the environment says, unless it is set up already. -/
def setUpLog : StateT Session m Unit := do
  let level := levelOfName ((← get).environment.setting .logLevel)
  let _ ← perform (Action.setUpLog level)

/-- Runs a command line: the name of a command and its arguments. -/
def run (commandLine : List String) : StateT Session m Ending :=
  match commandLine with
  | [] => showHelp 1
  | name :: arguments =>
      if name = "-h" ∨ name = "--help" then showHelp 0
      else match command? name with
        | some command => do
            setUpLog
            command arguments
        | none => do
            log Level.error s!"Unknown command: {name}"
            showHelp 1

end Commands

end Typeset.CommandLine

import Typeset.Log
import Typeset.Registry
import Typeset.Rendering
import Typeset.Resolution.Sink
import Typeset.Settings

/-!
A session holds what outlives a single operation: the environment, whether choices are
checked, the registered formatters and the log. An action may fail. What it did to the
session before it failed stays done, so a failure leaves its traces in the log.
-/

set_option autoImplicit false

namespace Typeset

/-- Why an action did not finish. -/
inductive Failure where
  | layout (fault : LayoutFault)
  | invalid (reason : Invalid)
  | unknownFormatter (name : String) (available : List String)
  deriving DecidableEq

structure Session where
  environment : Environment
  /-- Whether choices are checked, where that does not depend on the environment. -/
  forced : Option Bool
  /-- The modules of the bundled formatters are loaded before a session starts, so that these
  formatters are registered in it. -/
  registry : Registry
  log : Log

namespace Session

def initial : Session where
  environment := .empty
  forced := none
  registry := .bundled
  log := .empty

/-- Whether choices are checked. -/
def verifies (session : Session) : Bool :=
  session.forced.getD (session.environment.setting .verifyChoices)

/-- The session after some more records. -/
def logged (session : Session) (records : List Record) : Session :=
  { session with log := records.foldl Log.add session.log }

end Session

abbrev Action (α : Type) := ExceptT Failure (StateM Session) α

namespace Action

variable {α : Type}

/-- Adds a record to the log. -/
def record (logger : String) (level : Int) (message : String) : Action Unit :=
  modify fun session =>
    { session with log := session.log.add ⟨loggerName logger, level, message⟩ }

/-- Takes what was written to the log since the last time. -/
def takeLog : Action String :=
  modifyGet fun session =>
    let (written, log) := session.log.takeWritten
    (written, { session with log })

/-- Fixes the level of the log, unless that is done already. -/
def setUpLog (level : Int) : Action Unit :=
  modify fun session => { session with log := session.log.setUp level }

/-- Sets an environment variable, or unsets it when there is no value. -/
def setVariable (name : String) (value : Option String) : Action Unit :=
  modify fun session => { session with environment := session.environment.put name value }

/-- Forces the check of choices on or off, or leaves it to the environment. -/
def force (enabled : Option Bool) : Action Unit :=
  modify fun session => { session with forced := enabled }

def register (formatter : Formatter) : Action Unit :=
  modify fun session => { session with registry := session.registry.register formatter }

/-- Runs the action while the check of choices is forced on or off, or left to the
environment. What was forced before is forced again afterwards, also after a failure. -/
def verifying (enabled : Option Bool) (action : Action α) : Action α :=
  ExceptT.mk fun session =>
    let (outcome, after) := action.run { session with forced := enabled }
    (outcome, { after with forced := session.forced })

/-- Builds a layout, or whatever else needs choices. Branches that differ are logged. -/
def build (construction : Build α) : Action α := do
  match construction.run (← get).verifies with
  | .ok value => return value
  | .error fault => do
      match fault with
      | .branchesDiffer primary secondary =>
          let texts := Text.quoted primary ++ " != " ++ Text.quoted secondary
          record "doc" Level.warning s!"Choice branches flatten differently: {texts}"
      | .stray _ => pure ()
      throw (.layout fault)

/-- The tokens of an item, resolved as they are asked for. If the item has no layout, that
is the fault of the first of them. -/
def stream (item : Item) (width column : Int) : Action TokenStream := do
  record "resolve" Level.debug s!"Resolving layout: width={width} column={column}"
  tryCatch (do return (← build item.toLayout).resolve width column) fun failure =>
    match failure with
    | .layout fault => return .failed fault
    | _ => throw failure

/-- Delivers the first `count` tokens of an item, or all of them. Nothing is done at all
when no token is asked for. -/
def deliver (item : Item) (width column : Int) (count : Option Nat) : Action Delivery := do
  if count = some 0 then return ⟨[], none⟩
  let tokens ← stream item width column
  return match count with
    | none => tokens.all
    | some wanted => tokens.take wanted

/-- Writes the text of an item to a sink. The outcome of that comes with the sink. -/
def write (item : Item) (width column : Int) (sink : Sink) :
    Action (Except LayoutFault Nat × Sink) := do
  let tokens ← stream item width column
  return tokens.write.run sink

/-- The text of an item for a width. -/
def pretty (item : Item) (width column : Int) : Action String := do
  let delivery ← deliver item width column none
  match delivery.fault with
  | some fault => throw (.layout fault)
  | none => return Token.render delivery.tokens

/-- Looks a formatter up and prepares it with the step that is set now. No module is loaded
for a name that is not found, since those of the bundled formatters are loaded already. -/
def formatter (name : String) : Action PreparedFormatter := do
  let session ← get
  match session.registry.find? name with
  | some found => return found.prepare (session.environment.setting .indent)
  | none => throw (.unknownFormatter name session.registry.names)

end Action

namespace PreparedFormatter

/-- Lays a loaded document out. Lines that are too wide are logged. -/
def render (formatter : PreparedFormatter) (document : Document) (width column : Int) :
    Action Rendering := do
  let layout ← Action.build (document.layout formatter.step)
  let text ← Action.pretty (.node layout) width column
  let rendering : Rendering := ⟨text, formatter.name, width, column⟩
  if rendering.hasOverflow then
    let numbers := String.intercalate ", " (rendering.overflowingLines.map toString)
    Action.record "formatters" Level.debug
      s!"{formatter.name}: lines [{numbers}] exceed width {width}"
  return rendering

/-- Loads a document from its text and lays it out. -/
def format (formatter : PreparedFormatter) (text : String) (width column : Int) :
    Action Rendering :=
  match formatter.model.load text with
  | .error reason => throw (.invalid reason)
  | .ok document => formatter.render document width column

end PreparedFormatter

/-- The explanation of a failure to the user. -/
def Failure.message : Failure → String
  | .layout fault => fault.message
  | .invalid reason => reason.summary
  | .unknownFormatter name available =>
      let known := if available.isEmpty then "(none)" else String.intercalate ", " available
      s!"Unknown formatter '{name}'. Available: {known}"

end Typeset

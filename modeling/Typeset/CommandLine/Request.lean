import Typeset.CommandLine.Grammar
import Typeset.Settings
import Typeset.Text.Pieces

/-!
What a command is asked to do, and the grammars of the arguments that say so.
-/

set_option autoImplicit false

namespace Typeset.CommandLine

/-- The path that stands for the standard input. -/
def standardInput : String := "-"

structure RenderRequest where
  formatter : String
  path : String
  width : Option Int
  column : Int
  output : Option String
  verify : Bool
  deriving DecidableEq, Repr

structure DemoRequest where
  formatter : Option String
  widths : List Int
  deriving DecidableEq, Repr

structure EnvironmentRequest where
  categories : List Category
  deriving DecidableEq

def readWhole (value : String) : Except ValueProblem Int :=
  match Text.readInt? value with
  | some number => .ok number
  | none => .error (.notWhole value)

/-- Whole numbers between commas. Blank parts are skipped, but one part must be left. -/
def readWidths (value : String) : Except ValueProblem (List Int) :=
  let parts := (Text.pieces ',' value).filter fun part => !part.toList.all Text.isBlank
  match parts.mapM Text.readInt? with
  | none => .error (.badWidths value)
  | some [] => .error .noWidths
  | some widths => .ok widths

def readCategory (value : String) : Except ValueProblem Category :=
  match Category.all.find? fun category => category.name == value with
  | some category => .ok category
  | none => .error (.notOffered value (Category.all.map Category.name))

namespace RenderRequest

/-- Nothing is known yet but the defaults. The formatter has none. -/
def defaults : RenderRequest where
  formatter := ""
  path := standardInput
  width := none
  column := 0
  output := none
  verify := false

def grammar : Grammar RenderRequest where
  options :=
    [ ⟨["--width", "-w"], .value
        (fun value => (readWhole value).map fun width request =>
          { request with width := some width })
        fun request => { request with width := none }⟩,
      ⟨["--column", "-c"], .value
        (fun value => (readWhole value).map fun column request => { request with column })
        fun request => { request with column := 0 }⟩,
      ⟨["--output", "-o"], .value
        (fun value => .ok fun request => { request with output := some value })
        fun request => { request with output := none }⟩,
      ⟨["--verify-choices"], .flag fun request => { request with verify := true }⟩ ]
  plain :=
    [ ⟨"formatter", true, fun formatter request => { request with formatter }⟩,
      ⟨"path", false, fun path request => { request with path }⟩ ]

end RenderRequest

namespace DemoRequest

def defaults : DemoRequest where
  formatter := none
  widths := [80, 40, 20]

def grammar : Grammar DemoRequest where
  options :=
    [ ⟨["--widths"], .value
        (fun value => (readWidths value).map fun widths request => { request with widths })
        fun request => { request with widths := [] }⟩ ]
  plain :=
    [ ⟨"formatter", false, fun formatter request =>
        { request with formatter := some formatter }⟩ ]

end DemoRequest

namespace EnvironmentRequest

def defaults : EnvironmentRequest where
  categories := Category.all

def grammar : Grammar EnvironmentRequest where
  options :=
    [ ⟨["--category"], .value
        (fun value => (readCategory value).map fun category _ => ⟨[category]⟩)
        fun _ => ⟨[]⟩⟩ ]
  plain := []

end EnvironmentRequest

/-- A command that takes no arguments. -/
def emptyGrammar : Grammar Unit where
  options := []
  plain := []

end Typeset.CommandLine

import Typeset.Document

/-!
Formatters: named ways to turn a document of some model into a layout. A formatter is
prepared before it is used. Preparing it settles the step by which the arguments of an
expression are indented, whatever the setting becomes afterwards.
-/

set_option autoImplicit false

namespace Typeset

structure Formatter where
  name : String
  description : String
  model : Model
  sample : Document

namespace Formatter

def cSource : Formatter where
  name := "c"
  description := "C subset: structs, enums, variables and functions"
  model := .program
  sample := .ofProgram CSource.Program.sample

def sExpr : Formatter where
  name := "sexpr"
  description := "Arithmetic S-expressions, arguments stacked when too wide"
  model := .call
  sample := .ofCall Call.sample

def tree : Formatter where
  name := "tree"
  description := "Labelled trees, children bracketed on one line or in a block"
  model := .tree
  sample := .ofTree Tree.sample

/-- The formatter of word lists, under a name of the client's choice. -/
def words (name : String) : Formatter where
  name
  description := "Space separated words"
  model := .words
  sample := .ofWords Words.sample

def bundled : List Formatter := [cSource, sExpr, tree]

end Formatter

/-- A formatter that is ready for use. -/
structure PreparedFormatter extends Formatter where
  step : Int

def Formatter.prepare (formatter : Formatter) (step : Int) : PreparedFormatter :=
  { formatter with step }

end Typeset

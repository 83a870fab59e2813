import Typeset.Text.Quoted

/-!
What is wrong with the arguments of a command.
-/

set_option autoImplicit false

namespace Typeset.CommandLine

/-- Why the value of an option is turned away. -/
inductive ValueProblem where
  | notWhole (value : String)
  | badWidths (value : String)
  | noWidths
  | notOffered (value : String) (offered : List String)
  deriving DecidableEq, Repr

def ValueProblem.message : ValueProblem → String
  | .notWhole value => s!"invalid int value: {Text.quoted value}"
  | .badWidths value => s!"invalid width list: {Text.quoted value}"
  | .noWidths => "at least one width is required"
  | .notOffered value offered =>
      let choices := String.intercalate ", " (offered.map Text.quoted)
      s!"invalid choice: {Text.quoted value} (choose from {choices})"

/-- Options are named by all their spellings. -/
inductive Misuse where
  | ambiguous (written : String) (spellings : List String)
  | valueMissing (option : String)
  | valueIgnored (option : String) (value : String)
  | badValue (option : String) (problem : ValueProblem)
  | argumentsMissing (names : List String)
  | unrecognized (arguments : List String)
  deriving DecidableEq, Repr

def Misuse.message : Misuse → String
  | .ambiguous written spellings =>
      let candidates := String.intercalate ", " spellings
      s!"ambiguous option: {written} could match {candidates}"
  | .valueMissing option => s!"argument {option}: expected one argument"
  | .valueIgnored option value =>
      s!"argument {option}: ignored explicit argument {Text.quoted value}"
  | .badValue option problem => s!"argument {option}: {problem.message}"
  | .argumentsMissing names =>
      "the following arguments are required: " ++ String.intercalate ", " names
  | .unrecognized arguments =>
      "unrecognized arguments: " ++ String.intercalate " " arguments

end Typeset.CommandLine

import Typeset.Layout.Flatten
import Typeset.Layout.FlatText

/-!
Building layouts. Choices can be checked while they are built: both branches must have
the same single-line text under the separator that the choice is built with. The check
is off or on for a whole construction.
-/

set_option autoImplicit false

namespace Typeset

/-- A construction that can be run with the check of choices off or on. -/
abbrev Build (α : Type) := ReaderT Bool (Except LayoutFault) α

namespace Layout

/-- Succeeds when both branches have the same single-line text. -/
def checkBranches (separator : String) (primary secondary : Layout) :
    Except LayoutFault Unit := do
  let primaryText ← flatText separator primary
  let secondaryText ← flatText separator secondary
  if primaryText = secondaryText then .ok ()
  else .error (.branchesDiffer primaryText secondaryText)

/-- A choice between two renderings whose breaks both flatten to `separator`. -/
def chooseWith (separator : String) (primary secondary : Layout) : Build Layout := do
  if ← read then checkBranches separator primary secondary
  return .choice primary secondary

/-- A choice between two renderings of the same content. -/
def choose (primary secondary : Layout) : Build Layout := chooseWith " " primary secondary

def space : Layout := .text " "

/-- The left layout, a space and the right one. -/
def spaceJoin (left right : Layout) : Layout := .concat left (.concat space right)

/-- The left layout, a line break and the right one. -/
def breakJoin (left right : Layout) : Layout := .concat left (.concat .lineBreak right)

/-- The left layout, then a space if what follows fits on the line and else a break,
then the right one. -/
def softJoin (left right : Layout) : Build Layout :=
  return .concat left (.concat (← choose space .lineBreak) right)

/-- The single-line form where it fits, its breaks becoming `separator`. -/
def groupWith (separator : String) (layout : Layout) : Build Layout := do
  let flat ← flattenWith separator layout
  chooseWith separator flat layout

/-- The single-line form where it fits, its breaks becoming spaces. -/
def group (layout : Layout) : Build Layout := do
  let flat ← flatten layout
  chooseWith " " flat layout

end Layout

end Typeset

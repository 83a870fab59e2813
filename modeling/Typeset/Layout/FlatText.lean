import Typeset.Layout.Fault

/-!
The text of the single-line form of a layout, written without building that form.
-/

set_option autoImplicit false

namespace Typeset.Layout

/-- The nodes of all layouts together. -/
def totalNodes : List Layout → Nat
  | [] => 0
  | layout :: rest => layout.nodes + totalNodes rest

/-- Appends the single-line text of the pending layouts, the first one first. -/
def writeFlat (separator : String) (pending : List Layout) (written : String) :
    Except LayoutFault String :=
  match pending with
  | [] => .ok written
  | .empty :: rest => writeFlat separator rest written
  | .lineBreak :: rest => writeFlat separator rest (written ++ separator)
  | .text content :: rest => writeFlat separator rest (written ++ content)
  | .indent _ child :: rest => writeFlat separator (child :: rest) written
  | .choice primary _ :: rest => writeFlat separator (primary :: rest) written
  | .concat left right :: rest => writeFlat separator (left :: right :: rest) written
  | .stray value :: _ => .error (.stray value)
termination_by totalNodes pending
decreasing_by
  all_goals
    simp only [totalNodes, nodes]
    omega

/-- The text of the single-line form, breaks becoming `separator`. -/
def flatText (separator : String) (layout : Layout) : Except LayoutFault String :=
  writeFlat separator [layout] ""

end Typeset.Layout

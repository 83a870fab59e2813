import Typeset.Layout.Basic

/-!
When two layouts count as the same: they have one structure, and strays in one place
are values that count as the same. Equal parts are settled without a walk, so parts
that the two layouts share cost nothing.
-/

set_option autoImplicit false

namespace Typeset.Layout

/-- Whether two layouts count as the same. -/
def alike (left right : Layout) : Bool :=
  decide (left = right) ||
    match left, right with
    | .indent amount child, .indent other twin => amount == other && child.alike twin
    | .concat left right, .concat other twin => left.alike other && right.alike twin
    | .choice primary secondary, .choice other twin =>
        primary.alike other && secondary.alike twin
    | .stray value, .stray twin => value.alike twin
    | _, _ => false

theorem alike_refl (layout : Layout) : layout.alike layout = true := by
  unfold alike
  simp

end Typeset.Layout

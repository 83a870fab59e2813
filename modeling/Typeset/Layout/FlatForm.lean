import Typeset.Layout.Fault

/-!
The single-line form of a layout, said by recursion. Breaks become a separator,
indentation is dropped and a choice keeps its primary branch. A layout of texts alone is
its own single-line form.
-/

set_option autoImplicit false

namespace Typeset.Layout

/-- The single-line form by recursion. The left part of a sequence comes first, so of
several strays the leftmost is the one that is named. -/
def flatForm (separator : String) : Layout → Except LayoutFault Layout
  | .empty => .ok .empty
  | .lineBreak => .ok (.text separator)
  | .text content => .ok (.text content)
  | .indent _ child => flatForm separator child
  | .concat left right => do
      let flatLeft ← flatForm separator left
      let flatRight ← flatForm separator right
      return .concat flatLeft flatRight
  | .choice primary _ => flatForm separator primary
  | .stray value => .error (.stray value)

theorem flat_form_concat
    {separator : String}
    {left right flatLeft flatRight : Layout}
    (leftForm : flatForm separator left = .ok flatLeft)
    (rightForm : flatForm separator right = .ok flatRight) :
    flatForm separator (.concat left right) = .ok (.concat flatLeft flatRight) := by
  simp only [flatForm, leftForm, rightForm]
  rfl

theorem flat_form_of_is_flat
    (separator : String)
    (layout : Layout)
    (flat : layout.isFlat = true) :
    flatForm separator layout = .ok layout := by
  induction layout with
  | empty => rfl
  | text content => rfl
  | concat left right leftForm rightForm =>
      simp only [isFlat, Bool.and_eq_true] at flat
      exact flat_form_concat (leftForm flat.1) (rightForm flat.2)
  | lineBreak => cases flat
  | indent amount child => cases flat
  | choice primary secondary => cases flat
  | stray value => cases flat

end Typeset.Layout

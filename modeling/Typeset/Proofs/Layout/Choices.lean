import Typeset.Layout.Flatten
import Typeset.Proofs.Layout.FlatText
import Typeset.Proofs.Text.View

/-!
What holds of every choice in a layout. The secondary branch of a choice is looked into as
well, although flattening never does. A flattened layout has no choices left.
-/

set_option autoImplicit false

namespace Typeset.Layout

/-- The branches of every choice, wherever it stands, are related by `agree`. -/
def EveryChoice (agree : Layout → Layout → Prop) : Layout → Prop
  | .empty | .lineBreak | .text _ | .stray _ => True
  | .indent _ child => EveryChoice agree child
  | .concat left right => EveryChoice agree left ∧ EveryChoice agree right
  | .choice primary secondary =>
      agree primary secondary ∧ EveryChoice agree primary ∧ EveryChoice agree secondary

/-- What a view shows of the single-line text. -/
def seenFlat (view : Text.View) (separator : String) (layout : Layout) :
    Except LayoutFault String :=
  view.seen <$> flatText separator layout

def LookAlike (view : Text.View) (separator : String) (left right : Layout) : Prop :=
  seenFlat view separator left = seenFlat view separator right

theorem EveryChoice.mono
    {strong weak : Layout → Layout → Prop}
    (weaker : ∀ primary secondary, strong primary secondary → weak primary secondary)
    {layout : Layout}
    (every : layout.EveryChoice strong) :
    layout.EveryChoice weak := by
  induction layout with
  | empty => trivial
  | lineBreak => trivial
  | text content => trivial
  | stray value => trivial
  | indent amount child ih => exact ih every
  | concat left right leftStep rightStep => exact ⟨leftStep every.1, rightStep every.2⟩
  | choice primary secondary primaryStep secondaryStep =>
      exact ⟨weaker _ _ every.1, primaryStep every.2.1, secondaryStep every.2.2⟩

theorem every_choice_of_flat_form
    (agree : Layout → Layout → Prop)
    (separator : String)
    (layout flat : Layout)
    (form : flatForm separator layout = .ok flat) :
    flat.EveryChoice agree := by
  induction layout generalizing flat with
  | empty =>
      cases form
      trivial
  | lineBreak =>
      cases form
      trivial
  | text content =>
      cases form
      trivial
  | stray value => cases form
  | indent amount child ih => exact ih flat form
  | choice primary secondary primaryStep _ => exact primaryStep flat form
  | concat left right leftStep rightStep =>
      obtain ⟨flatLeft, leftForm, form⟩ := bind_eq_ok.mp form
      obtain ⟨flatRight, rightForm, form⟩ := bind_eq_ok.mp form
      cases form
      exact ⟨leftStep flatLeft leftForm, rightStep flatRight rightForm⟩

theorem seen_flat_concat
    (view : Text.View)
    (separator : String)
    (left right : Layout) :
    seenFlat view separator (.concat left right) = (do
      let leftSeen ← seenFlat view separator left
      let rightSeen ← seenFlat view separator right
      return leftSeen ++ rightSeen) := by
  rw [seenFlat, seenFlat, seenFlat, flat_text_concat]
  cases flatText separator left with
  | error fault => rfl
  | ok leftText =>
      cases flatText separator right with
      | error fault => rfl
      | ok rightText => exact congrArg Except.ok (view.seen_append leftText rightText)

/-- Separators that a view shows alike make no difference to what it shows of a layout. -/
theorem seen_flat_separator
    (view : Text.View)
    (first second : String)
    (alike : view.seen first = view.seen second)
    (layout : Layout) :
    seenFlat view first layout = seenFlat view second layout := by
  induction layout with
  | empty => simp [seenFlat]
  | lineBreak =>
      rw [seenFlat, seenFlat, flat_text_line_break, flat_text_line_break]
      exact congrArg Except.ok alike
  | text content => simp [seenFlat]
  | stray value => simp [seenFlat]
  | indent amount child ih => simpa [seenFlat] using ih
  | choice primary secondary primaryStep _ => simpa [seenFlat] using primaryStep
  | concat left right leftStep rightStep =>
      rw [seen_flat_concat, seen_flat_concat, leftStep, rightStep]

end Typeset.Layout

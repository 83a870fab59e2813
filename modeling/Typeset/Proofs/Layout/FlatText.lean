import Typeset.Layout.FlatText
import Typeset.Layout.FlatForm

/-!
The single-line text of a layout, part by part. The text of a sequence is that of its
parts in a row, and a choice has the text of its primary branch, so the text can be found
by recursion although it is written with a list of pending layouts: `write_flat_cons`. Both the
form and the text fail at the leftmost stray on the line: `flat_form_fails_at`,
`flat_text_fails_at`.
-/

set_option autoImplicit false

namespace Typeset

/-- A computation in two parts succeeds exactly if both of them do. -/
theorem bind_eq_ok
    {ε α β : Type}
    {first : Except ε α}
    {next : α → Except ε β}
    {value : β} :
    first >>= next = .ok value ↔ ∃ middle, first = .ok middle ∧ next middle = .ok value := by
  constructor
  · intro given
    cases first with
    | error fault => cases given
    | ok middle => exact ⟨middle, rfl, given⟩
  · rintro ⟨middle, rfl, given⟩
    exact given

namespace Layout

variable {separator : String}

@[simp] theorem flat_text_empty : flatText separator .empty = .ok "" := by
  simp [flatText, writeFlat]

@[simp] theorem flat_text_line_break : flatText separator .lineBreak = .ok separator := by
  simp [flatText, writeFlat]

@[simp] theorem flat_text_text (content : String) :
    flatText separator (.text content) = .ok content := by
  simp [flatText, writeFlat]

@[simp] theorem flat_text_stray (value : Stray) :
    flatText separator (.stray value) = .error (.stray value) := by
  simp [flatText, writeFlat]

@[simp] theorem flat_text_indent (amount : Int) (child : Layout) :
    flatText separator (.indent amount child) = flatText separator child := by
  simp [flatText, writeFlat]

@[simp] theorem flat_text_choice (primary secondary : Layout) :
    flatText separator (.choice primary secondary) = flatText separator primary := by
  simp [flatText, writeFlat]

/-- What is pending after a layout is written behind the text of the layout. -/
theorem write_flat_cons
    (layout : Layout)
    (rest : List Layout)
    (written : String) :
    writeFlat separator (layout :: rest) written = (do
      let text ← flatText separator layout
      writeFlat separator rest (written ++ text)) := by
  induction layout generalizing rest written with
  | empty => simp [writeFlat, bind, Except.bind]
  | lineBreak => simp [writeFlat, bind, Except.bind]
  | text content => simp [writeFlat, bind, Except.bind]
  | stray value => simp [writeFlat, bind, Except.bind]
  | indent amount child ih => rw [writeFlat, ih, flat_text_indent]
  | choice primary secondary primaryStep _ => rw [writeFlat, primaryStep, flat_text_choice]
  | concat left right leftStep rightStep =>
      rw [flatText, writeFlat, writeFlat, leftStep, leftStep, bind_assoc]
      congr 1
      funext leftText
      rw [rightStep, rightStep, bind_assoc]
      congr 1
      funext rightText
      simp [writeFlat, bind, Except.bind, String.append_assoc]

theorem flat_text_concat (left right : Layout) :
    flatText separator (.concat left right) = (do
      let leftText ← flatText separator left
      let rightText ← flatText separator right
      return leftText ++ rightText) := by
  rw [flatText, writeFlat, write_flat_cons]
  congr 1
  funext leftText
  rw [write_flat_cons]
  congr 1
  funext rightText
  simp [writeFlat]
  rfl

theorem flat_text_of_clean
    (separator : String)
    (layout : Layout)
    (clean : layout.Clean) :
    ∃ text, flatText separator layout = .ok text := by
  induction layout with
  | empty => exact ⟨_, flat_text_empty⟩
  | lineBreak => exact ⟨_, flat_text_line_break⟩
  | text content => exact ⟨_, flat_text_text content⟩
  | indent amount child ih => simpa using ih clean
  | choice primary secondary primaryStep _ => simpa using primaryStep clean.1
  | concat left right leftStep rightStep =>
      obtain ⟨leftText, leftFound⟩ := leftStep clean.1
      obtain ⟨rightText, rightFound⟩ := rightStep clean.2
      rw [flat_text_concat, leftFound, rightFound]
      exact ⟨_, rfl⟩
  | stray value => exact clean.elim

/-- A layout without strays has a single-line form. That form has the text of the layout
under every separator, as it has no breaks left. -/
theorem flat_form_of_clean
    (separator : String)
    (layout : Layout)
    (clean : layout.Clean) :
    ∃ flat, flatForm separator layout = .ok flat ∧ flat.Clean ∧
      ∀ other, flatText other flat = flatText separator layout := by
  induction layout with
  | empty => exact ⟨.empty, rfl, trivial, fun other => by simp⟩
  | lineBreak => exact ⟨.text separator, rfl, trivial, fun other => by simp⟩
  | text content => exact ⟨.text content, rfl, trivial, fun other => by simp⟩
  | indent amount child ih => simpa [flatForm] using ih clean
  | choice primary secondary primaryStep _ => simpa [flatForm] using primaryStep clean.1
  | concat left right leftStep rightStep =>
      obtain ⟨flatLeft, leftForm, leftClean, leftText⟩ := leftStep clean.1
      obtain ⟨flatRight, rightForm, rightClean, rightText⟩ := rightStep clean.2
      refine ⟨.concat flatLeft flatRight, flat_form_concat leftForm rightForm,
        ⟨leftClean, rightClean⟩, ?_⟩
      intro other
      rw [flat_text_concat, flat_text_concat, leftText, rightText]
  | stray value => exact clean.elim

/-- A single-line form is made of texts alone, so it is a single-line form of itself. -/
theorem is_flat_of_flat_form
    (separator : String)
    (layout flat : Layout)
    (form : flatForm separator layout = .ok flat) :
    flat.isFlat = true := by
  induction layout generalizing flat with
  | empty =>
      cases form
      rfl
  | lineBreak =>
      cases form
      rfl
  | text content =>
      cases form
      rfl
  | stray value => cases form
  | indent amount child ih => exact ih flat form
  | choice primary secondary primaryStep _ => exact primaryStep flat form
  | concat left right leftStep rightStep =>
      obtain ⟨flatLeft, leftForm, form⟩ := bind_eq_ok.mp form
      obtain ⟨flatRight, rightForm, form⟩ := bind_eq_ok.mp form
      cases form
      rw [isFlat, leftStep flatLeft leftForm, rightStep flatRight rightForm]
      rfl

/-- The strays that the single-line form would hold, from left to right. -/
def straysOnLine : Layout → List Stray
  | .empty | .lineBreak | .text _ => []
  | .indent _ child => child.straysOnLine
  | .concat left right => left.straysOnLine ++ right.straysOnLine
  | .choice primary _ => primary.straysOnLine
  | .stray value => [value]

/-- A computation that fails at the first of some strays, and comes to an end if there is none. -/
def FailsAt {α : Type} (outcome : Except LayoutFault α) : List Stray → Prop
  | [] => ∃ value, outcome = .ok value
  | first :: _ => outcome = .error (.stray first)

theorem FailsAt.bind
    {α β : Type}
    {first : Except LayoutFault α}
    {next : α → Except LayoutFault β}
    {strays later : List Stray}
    (here : FailsAt first strays)
    (there : ∀ value, FailsAt (next value) later) :
    FailsAt (first >>= next) (strays ++ later) := by
  cases strays with
  | nil =>
      obtain ⟨value, rfl⟩ := here
      exact there value
  | cons stray others =>
      cases here
      rfl

theorem FailsAt.error_iff
    {α : Type}
    {outcome : Except LayoutFault α}
    {strays : List Stray}
    (fails : FailsAt outcome strays)
    (fault : LayoutFault) :
    outcome = .error fault ↔ strays.head?.map .stray = some fault := by
  cases strays with
  | nil =>
      obtain ⟨value, rfl⟩ := fails
      simp
  | cons first others =>
      cases fails
      simp

theorem flat_form_fails_at (separator : String) (layout : Layout) :
    FailsAt (flatForm separator layout) layout.straysOnLine := by
  induction layout with
  | empty => exact ⟨_, rfl⟩
  | lineBreak => exact ⟨_, rfl⟩
  | text content => exact ⟨_, rfl⟩
  | indent amount child ih => exact ih
  | concat left right leftStep rightStep =>
      refine leftStep.bind fun flatLeft => ?_
      rw [← List.append_nil right.straysOnLine]
      exact rightStep.bind fun flatRight => ⟨_, rfl⟩
  | choice primary secondary primaryStep _ => exact primaryStep
  | stray value => rfl

theorem flat_text_fails_at (separator : String) (layout : Layout) :
    FailsAt (flatText separator layout) layout.straysOnLine := by
  induction layout with
  | empty => exact ⟨_, flat_text_empty⟩
  | lineBreak => exact ⟨_, flat_text_line_break⟩
  | text content => exact ⟨_, flat_text_text content⟩
  | indent amount child ih => rwa [flat_text_indent]
  | concat left right leftStep rightStep =>
      rw [flat_text_concat]
      refine leftStep.bind fun leftText => ?_
      rw [← List.append_nil right.straysOnLine]
      exact rightStep.bind fun rightText => ⟨_, rfl⟩
  | choice primary secondary primaryStep _ => rwa [flat_text_choice]
  | stray value => exact flat_text_stray value

end Layout

end Typeset

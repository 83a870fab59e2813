import Std.Data.HashMap
import Typeset.Layout.FlatForm

/-!
Flattening without walking a shared part twice. The pending work is kept in a list of
frames and the finished parts in a table, so neither the depth of a layout nor the
sharing of its parts makes it dear. What is flat already is kept as it is. The walk
finds `flatForm` wherever the parts are stored, and it carries the proof of that;
`flattenWith_eq` states it.
-/

set_option autoImplicit false

namespace Typeset.Layout

variable {separator : String}

/-- A layout with its flat form. -/
structure FlatEntry (separator : String) where
  layout : Layout
  flat : Layout
  form : flatForm separator layout = .ok flat

/-- Flat forms that are known already, by the places where their layouts are stored. Two
layouts in one place are one object, so telling that they are equal takes no walk. -/
abbrev FlatTable (separator : String) := Std.HashMap USize (FlatEntry separator)

namespace FlatTable

/-- The key of a place. Objects lie at multiples of eight. -/
def key (place : USize) : USize := place >>> 3

/-- The flat form of the layout that is stored in a place. -/
def find? (known : FlatTable separator) (place : USize) (layout : Layout) :
    Option { flat : Layout // flatForm separator layout = .ok flat } :=
  match known[key place]? with
  | none => none
  | some entry =>
      if same : entry.layout = layout then some ⟨entry.flat, same ▸ entry.form⟩ else none

def enter (known : FlatTable separator) (place : USize) (entry : FlatEntry separator) :
    FlatTable separator :=
  known.insert (key place) entry

end FlatTable

/-- What waits for a flat form: a layout that has the same one, a sequence whose right
part is still to come, or a sequence whose left part is done. -/
inductive FlatFrame where
  | same (whole : Layout)
  | before (whole right : Layout)
  | after (whole flatLeft : Layout)

namespace FlatFrame

/-- A bound on the steps that a frame still asks for. -/
def weight : FlatFrame → Nat
  | .same _ => 1
  | .before _ right => 3 * right.nodes + 2
  | .after _ _ => 1

def totalWeight : List FlatFrame → Nat
  | [] => 0
  | frame :: rest => frame.weight + totalWeight rest

end FlatFrame

/-- What the frames make of a flat form, by recursion. -/
def resumeFlat (separator : String) : List FlatFrame → Layout → Except LayoutFault Layout
  | [], flat => .ok flat
  | .same _ :: frames, flat => resumeFlat separator frames flat
  | .before _ right :: frames, flat => do
      let flatRight ← flatForm separator right
      resumeFlat separator frames (.concat flat flatRight)
  | .after _ flatLeft :: frames, flat => resumeFlat separator frames (.concat flatLeft flat)

/-- The flat form completes the innermost frame, what comes of that the next one, and
so on outwards. -/
def Completes (separator : String) : List FlatFrame → Layout → Prop
  | [], _ => True
  | .same whole :: frames, flat =>
      flatForm separator whole = .ok flat ∧ Completes separator frames flat
  | .before whole right :: frames, flat =>
      ∀ flatRight, flatForm separator right = .ok flatRight →
        flatForm separator whole = .ok (.concat flat flatRight) ∧
          Completes separator frames (.concat flat flatRight)
  | .after whole flatLeft :: frames, flat =>
      flatForm separator whole = .ok (.concat flatLeft flat) ∧
        Completes separator frames (.concat flatLeft flat)

/-- The wanted outcome, in whatever way it is found. -/
abbrev Found (wanted : Except LayoutFault Layout) :=
  { found : Except LayoutFault Layout // found = wanted }

theorem Found.unique {wanted : Except LayoutFault Layout} (first second : Found wanted) :
    first = second :=
  Subtype.ext (first.2.trans second.2.symm)

theorem form_then_resume
    {layout flat : Layout}
    (form : flatForm separator layout = .ok flat)
    (frames : List FlatFrame) :
    resumeFlat separator frames flat =
      (flatForm separator layout >>= resumeFlat separator frames) := by
  rw [form]
  rfl

theorem concat_then_resume (whole left right : Layout) (frames : List FlatFrame) :
    (flatForm separator left >>= resumeFlat separator (.before whole right :: frames)) =
      (flatForm separator (.concat left right) >>= resumeFlat separator frames) := by
  rw [flatForm]
  cases flatForm separator left with
  | error fault => rfl
  | ok flatLeft =>
      cases rightForm : flatForm separator right with
      | error fault => simp [resumeFlat, rightForm, bind, Except.bind]
      | ok flatRight => simp [resumeFlat, rightForm, bind, Except.bind, pure, Except.pure]

mutual

/-- Flattens a layout, then hands its flat form to the frames that wait for it. -/
def flattenDown
    (layout : Layout)
    (frames : List FlatFrame)
    (known : FlatTable separator)
    (completes : ∀ flat, flatForm separator layout = .ok flat →
      Completes separator frames flat) :
    Found (flatForm separator layout >>= resumeFlat separator frames) :=
  if flat : layout.isFlat then
    have form := flat_form_of_is_flat separator layout flat
    have found := flattenUp layout frames known (completes layout form)
    ⟨found.1, found.2.trans (form_then_resume form frames)⟩
  else
    withPtrAddr layout (fun place =>
      match known.find? place layout with
      | some ⟨flat, form⟩ =>
          have found := flattenUp flat frames known (completes flat form)
          ⟨found.1, found.2.trans (form_then_resume form frames)⟩
      | none =>
          match shape : layout with
          | .empty => flattenUp .empty frames known (completes _ rfl)
          | .lineBreak => flattenUp (.text separator) frames known (completes _ rfl)
          | .text content => flattenUp (.text content) frames known (completes _ rfl)
          | .indent _ child =>
              flattenDown child (.same layout :: frames) known fun flat form =>
                ⟨shape ▸ form, completes flat form⟩
          | .choice primary _ =>
              flattenDown primary (.same layout :: frames) known fun flat form =>
                ⟨shape ▸ form, completes flat form⟩
          | .concat left right =>
              have found := flattenDown left (.before layout right :: frames) known
                fun flatLeft leftForm flatRight rightForm =>
                  have form := flat_form_concat leftForm rightForm
                  ⟨shape ▸ form, completes _ form⟩
              ⟨found.1, found.2.trans (concat_then_resume layout left right frames)⟩
          | .stray value => ⟨.error (.stray value), rfl⟩)
      fun _ _ => Found.unique _ _
termination_by 3 * layout.nodes + FlatFrame.totalWeight frames
decreasing_by
  all_goals grind [FlatFrame.totalWeight, FlatFrame.weight, nodes, nodes_pos]

/-- Gives a flat form to the innermost frame, and enters it into the table under the
layout that it completes. -/
def flattenUp
    (flat : Layout)
    (frames : List FlatFrame)
    (known : FlatTable separator)
    (completes : Completes separator frames flat) :
    Found (resumeFlat separator frames flat) :=
  match frames, completes with
  | [], _ => ⟨.ok flat, rfl⟩
  | .same whole :: frames, completes =>
      withPtrAddr whole (fun place =>
        flattenUp flat frames (known.enter place ⟨whole, flat, completes.1⟩) completes.2)
        fun _ _ => Found.unique _ _
  | .before whole right :: frames, completes =>
      flattenDown right (.after whole flat :: frames) known completes
  | .after whole flatLeft :: frames, completes =>
      withPtrAddr whole (fun place =>
        flattenUp (.concat flatLeft flat) frames
          (known.enter place ⟨whole, .concat flatLeft flat, completes.1⟩) completes.2)
        fun _ _ => Found.unique _ _
termination_by FlatFrame.totalWeight frames
decreasing_by
  all_goals
    simp only [FlatFrame.totalWeight, FlatFrame.weight]
    omega

end

/-- The single-line form, breaks becoming `separator`. -/
def flattenWith (separator : String) (layout : Layout) : Except LayoutFault Layout :=
  (flattenDown layout [] (∅ : FlatTable separator) fun _ _ => trivial).1

theorem flattenWith_eq (separator : String) (layout : Layout) :
    flattenWith separator layout = flatForm separator layout := by
  refine (flattenDown layout [] (∅ : FlatTable separator) fun _ _ => trivial).2.trans ?_
  cases flatForm separator layout <;> rfl

/-- The single-line form, breaks becoming single spaces. -/
def flatten (layout : Layout) : Except LayoutFault Layout := flattenWith " " layout

end Typeset.Layout

import Std.Data.HashMap.Lemmas
import Typeset.Proofs.Layout.FlatText

/-!
Layouts as objects in a store. An object is made of objects that were there before it. One object
may be a part of many others, so a store of a few objects may stand for a layout of very many nodes.
An object is flattened by looking at it and at a table of the flat forms that were made so far. A
look tells the flat form, a stray, or the parts that are missing from the table: `look_made`,
`look_fault`, `look_missing`.
-/

set_option autoImplicit false

namespace Typeset

/-- One object, with its parts given by their places. -/
inductive StoredLayout (Place : Type) where
  | empty
  | lineBreak
  | text (content : String)
  | indent (amount : Int) (child : Place)
  | concat (left right : Place)
  | choice (primary secondary : Place)
  | stray (value : Stray)

/-- The layout of an object, from those of its parts. -/
def StoredLayout.assemble {Place : Type} (layoutOf : Place → Layout) :
    StoredLayout Place → Layout
  | .empty => .empty
  | .lineBreak => .lineBreak
  | .text content => .text content
  | .indent amount child => .indent amount (layoutOf child)
  | .concat left right => .concat (layoutOf left) (layoutOf right)
  | .choice primary secondary => .choice (layoutOf primary) (layoutOf secondary)
  | .stray value => .stray value

/-- Objects in the order in which they were made. The parts of each stand before it. -/
structure LayoutStore where
  size : Nat
  object : (place : Fin size) → StoredLayout (Fin place)

/-- What flattening makes: an object that is kept as it is, the text for the breaks, or a new
sequence. -/
inductive FlatPart (size : Nat) where
  | kept (place : Fin size)
  | separator
  | joined (left right : FlatPart size)
  deriving DecidableEq

namespace LayoutStore

/-- A part of an object, as an object of the store. -/
def part {store : LayoutStore} {place : Fin store.size} (inner : Fin place) : Fin store.size :=
  inner.castLE (Nat.le_of_lt place.isLt)

theorem part_lt {store : LayoutStore} {place : Fin store.size} (inner : Fin place) :
    part inner < place :=
  inner.isLt

/-- The layout that an object stands for. -/
def layout (store : LayoutStore) (place : Fin store.size) : Layout :=
  (store.object place).assemble fun inner => store.layout (part inner)
termination_by place.val
decreasing_by exact part_lt inner

variable (store : LayoutStore)

/-- What was made so far, by the places of the objects. -/
abbrev Known := Std.HashMap Nat (FlatPart store.size)

/-- A look at an object ends with its flat form, or with the parts that have none yet, the one to
go on with first. -/
inductive Look where
  | made (flat : FlatPart store.size)
  | missing (parts : List (Fin store.size))

/-- Looks at an object. Of two parts that are missing the left one comes first. A sequence whose
parts are kept is kept itself. -/
def look (known : store.Known) (place : Fin store.size) : Except LayoutFault store.Look :=
  match store.object place with
  | .lineBreak => .ok (.made .separator)
  | .empty | .text _ => .ok (.made (.kept place))
  | .indent _ child | .choice child _ =>
      match known[child.val]? with
      | some flat => .ok (.made flat)
      | none => .ok (.missing [part child])
  | .concat left right =>
      match known[left.val]?, known[right.val]? with
      | some flatLeft, some flatRight =>
          if flatLeft = .kept (part left) ∧ flatRight = .kept (part right) then
            .ok (.made (.kept place))
          else .ok (.made (.joined flatLeft flatRight))
      | _, _ =>
          .ok (.missing ([part left, part right].filter fun inner => known[inner.val]?.isNone))
  | .stray value => .error (.stray value)

end LayoutStore

/-- The layout that was made. -/
def FlatPart.layout (store : LayoutStore) (separator : String) : FlatPart store.size → Layout
  | .kept place => store.layout place
  | .separator => .text separator
  | .joined left right => .concat (left.layout store separator) (right.layout store separator)

namespace LayoutStore

open Layout

variable {store : LayoutStore} {separator : String}

/-- The strays on the lines of some objects. -/
def straysAt (parts : List (Fin store.size)) : List Stray :=
  parts.flatMap fun inner => (store.layout inner).straysOnLine

theorem strays_at_singleton (place : Fin store.size) :
    straysAt [place] = (store.layout place).straysOnLine :=
  List.flatMap_singleton _ _

/-- Every form in a table is that of the object in its place. -/
def Sound (separator : String) (known : store.Known) : Prop :=
  ∀ (place : Fin store.size) flat, known[place.val]? = some flat →
    flatForm separator (store.layout place) = .ok (flat.layout store separator)

theorem Sound.no_strays
    {known : store.Known}
    (sound : Sound separator known)
    {place : Fin store.size}
    {flat : FlatPart store.size}
    (found : known[place.val]? = some flat) :
    (store.layout place).straysOnLine = [] := by
  have fails := flat_form_fails_at separator (store.layout place)
  rw [sound place flat found] at fails
  cases strays : (store.layout place).straysOnLine with
  | nil => rfl
  | cons first others =>
      rw [strays] at fails
      cases fails

/-- A look that fails has met a stray, and the stray is all that is on the line. -/
theorem look_fault
    {known : store.Known}
    {place : Fin store.size}
    {fault : LayoutFault}
    (failed : store.look known place = .error fault) :
    ∃ value, fault = .stray value ∧ (store.layout place).straysOnLine = [value] := by
  unfold look at failed
  rw [layout]
  cases shape : store.object place with
  | stray value =>
      simp only [shape, Except.error.injEq] at failed
      exact ⟨value, failed.symm, rfl⟩
  | _ =>
      simp only [shape] at failed
      repeat' split at failed
      all_goals cases failed

/-- What is made at a look at an object is its flat form. -/
theorem look_made
    {known : store.Known}
    (sound : Sound separator known)
    {place : Fin store.size}
    {flat : FlatPart store.size}
    (made : store.look known place = .ok (.made flat)) :
    flatForm separator (store.layout place) = .ok (flat.layout store separator) := by
  have whole := layout.eq_1 store place
  unfold look at made
  cases shape : store.object place with
  | empty | text content | lineBreak =>
      simp only [shape, Except.ok.injEq, Look.made.injEq, StoredLayout.assemble] at made whole
      simp only [← made, FlatPart.layout, whole, flatForm]
  | stray value => simp [shape] at made
  | indent amount child | choice child secondary =>
      simp only [shape, StoredLayout.assemble] at made whole
      cases found : known[child.val]? with
      | none => simp [found] at made
      | some flatChild =>
          simp only [found, Except.ok.injEq, Look.made.injEq] at made
          rw [whole]
          exact sound (part child) flat (found.trans (congrArg some made))
  | concat left right =>
      simp only [shape, StoredLayout.assemble] at made whole
      cases foundLeft : known[left.val]? with
      | none => simp [foundLeft] at made
      | some flatLeft =>
          cases foundRight : known[right.val]? with
          | none => simp [foundLeft, foundRight] at made
          | some flatRight =>
              have form := flat_form_concat
                (sound (part left) flatLeft foundLeft) (sound (part right) flatRight foundRight)
              rw [whole, form]
              simp only [foundLeft, foundRight] at made
              split at made
              next kept =>
                simp only [Except.ok.injEq, Look.made.injEq] at made
                simp only [← made, kept.1, kept.2, FlatPart.layout, whole]
              next =>
                simp only [Except.ok.injEq, Look.made.injEq] at made
                rw [← made, FlatPart.layout]

/-- Whatever one table knows the other one knows too. -/
def Keeps (known later : store.Known) : Prop :=
  ∀ (place : Nat) flat, known[place]? = some flat → later[place]? = some flat

theorem all_found
    {known later : store.Known}
    (keeps : Keeps known later)
    (inners : List (Fin store.size))
    (lacking : ∀ inner ∈ inners.filter fun inner => known[inner.val]?.isNone,
      later[inner.val]?.isSome) :
    ∀ inner ∈ inners, later[inner.val]?.isSome := by
  intro inner listed
  cases found : known[inner.val]? with
  | some flat => simp [keeps inner.val flat found]
  | none => exact lacking inner (List.mem_filter.mpr ⟨listed, by simp [found]⟩)

/-- Strays are in the parts that have no flat form. -/
theorem strays_of_lacking
    {known : store.Known}
    (sound : Sound separator known)
    (inners : List (Fin store.size)) :
    straysAt (inners.filter fun inner => known[inner.val]?.isNone) = straysAt inners := by
  induction inners with
  | nil => rfl
  | cons inner others ih =>
      simp only [straysAt] at ih ⊢
      cases found : known[inner.val]? with
      | none => simp [found, ih]
      | some flat => simp [found, ih, sound.no_strays found]

/-- The parts that a look finds missing are few and stand before the object. The line of the object
has no other strays than theirs, and a look finds none missing when all of them are there. -/
structure Lacks (known : store.Known) (place : Fin store.size) (parts : List (Fin store.size)) :
    Prop where
  before : ∀ inner ∈ parts, inner < place
  few : parts.length ≤ 2
  strays : (store.layout place).straysOnLine = straysAt parts
  again : ∀ later : store.Known, Keeps known later →
    (∀ inner ∈ parts, later[inner.val]?.isSome) →
    ∃ flat, store.look later place = .ok (.made flat)

theorem look_missing
    {known : store.Known}
    (sound : Sound separator known)
    {place : Fin store.size}
    {parts : List (Fin store.size)}
    (missing : store.look known place = .ok (.missing parts)) :
    Lacks known place parts := by
  have whole := layout.eq_1 store place
  unfold look at missing
  cases shape : store.object place with
  | empty | lineBreak | text content | stray value => simp [shape] at missing
  | indent amount child | choice child secondary =>
      simp only [shape, StoredLayout.assemble] at missing whole
      cases found : known[child.val]? with
      | some flatChild => simp [found] at missing
      | none =>
          simp only [found, Except.ok.injEq, Look.missing.injEq] at missing
          subst missing
          refine ⟨by simpa using part_lt child, by simp, by simp [whole, straysOnLine, straysAt], ?_⟩
          intro later keeps all
          obtain ⟨flat, made⟩ := Option.isSome_iff_exists.mp (all (part child) (by simp))
          refine ⟨flat, ?_⟩
          have laterFound : later[child.val]? = some flat := made
          simp only [look, shape, laterFound]
  | concat left right =>
      simp only [shape, StoredLayout.assemble] at missing whole
      have lacking : parts =
          [part left, part right].filter fun inner => known[inner.val]?.isNone := by
        split at missing
        · split at missing <;> cases missing
        · cases missing
          rfl
      subst lacking
      refine ⟨?_, List.length_filter_le _ _, ?_, ?_⟩
      · intro inner lacking
        have listed := (List.mem_filter.mp lacking).1
        simp only [List.mem_cons, List.not_mem_nil, or_false] at listed
        rcases listed with rfl | rfl
        · exact part_lt left
        · exact part_lt right
      · rw [whole, strays_of_lacking sound]
        simp [straysOnLine, straysAt]
      · intro later keeps all
        have found := all_found keeps [part left, part right] all
        obtain ⟨flatLeft, leftMade⟩ := Option.isSome_iff_exists.mp (found (part left) (by simp))
        obtain ⟨flatRight, rightMade⟩ := Option.isSome_iff_exists.mp (found (part right) (by simp))
        have leftFound : later[left.val]? = some flatLeft := leftMade
        have rightFound : later[right.val]? = some flatRight := rightMade
        unfold look
        simp only [shape, leftFound, rightFound]
        split <;> exact ⟨_, rfl⟩

end LayoutStore

end Typeset

import Typeset.Layout.Stray

/-!
The layout algebra. A layout describes all the renderings that a text may have: it is
built from text, line breaks, indentation, sequences and choices between two renderings
of the same content. Two layouts compare equal at once when they are one object, and
unequal at once when their digests differ, so trees with shared parts stay cheap.
-/

set_option autoImplicit false

namespace Typeset

/-- A layout. The primary branch of a choice is preferred where it fits. A stray
is no layout but was put where one belongs; what walks into it fails. -/
inductive Layout where
  | empty
  | lineBreak
  | text (content : String)
  | indent (amount : Int) (child : Layout)
  | concat (left right : Layout)
  | choice (primary secondary : Layout)
  | stray (value : Stray)
with
  /-- A number that equal layouts have in common, kept in every node. -/
  @[computed_field] digest : Layout → UInt64
    | .empty => 3
    | .lineBreak => 5
    | .text content => mixHash 7 (hash content)
    | .indent amount child => mixHash (mixHash 11 (hash amount)) child.digest
    | .concat left right => mixHash 13 (mixHash left.digest right.digest)
    | .choice primary secondary => mixHash 17 (mixHash primary.digest secondary.digest)
    | .stray value => mixHash 19 (hash value.shown)
  /-- Whether the layout is made of texts alone, kept in every node. -/
  @[computed_field] isFlat : Layout → Bool
    | .empty => true
    | .lineBreak => false
    | .text _ => true
    | .indent _ _ => false
    | .concat left right => left.isFlat && right.isFlat
    | .choice _ _ => false
    | .stray _ => false

namespace Layout

instance : Inhabited Layout := ⟨.empty⟩

/-- Decides equality. The parts of two layouts are looked at only when the layouts are
two objects with one digest. -/
def decEq (left right : Layout) : Decidable (left = right) :=
  withPtrEqDecEq left right fun _ =>
    if agree : left.digest = right.digest then
      match left, right with
      | .empty, .empty => isTrue rfl
      | .lineBreak, .lineBreak => isTrue rfl
      | .text a, .text b => decidable_of_iff (a = b) (by simp)
      | .indent m a, .indent n b =>
          have := decEq a b
          decidable_of_iff (m = n ∧ a = b) (by simp)
      | .concat a b, .concat c d =>
          have := decEq a c
          have := decEq b d
          decidable_of_iff (a = c ∧ b = d) (by simp)
      | .choice a b, .choice c d =>
          have := decEq a c
          have := decEq b d
          decidable_of_iff (a = c ∧ b = d) (by simp)
      | .stray a, .stray b => decidable_of_iff (a = b) (by simp)
      | .empty, .lineBreak | .empty, .text _ | .empty, .indent .. | .empty, .concat ..
      | .empty, .choice .. | .empty, .stray _ | .lineBreak, .empty | .lineBreak, .text _
      | .lineBreak, .indent .. | .lineBreak, .concat .. | .lineBreak, .choice ..
      | .lineBreak, .stray _ | .text _, .empty | .text _, .lineBreak | .text _, .indent ..
      | .text _, .concat .. | .text _, .choice .. | .text _, .stray _ | .indent .., .empty
      | .indent .., .lineBreak | .indent .., .text _ | .indent .., .concat ..
      | .indent .., .choice .. | .indent .., .stray _ | .concat .., .empty
      | .concat .., .lineBreak | .concat .., .text _ | .concat .., .indent ..
      | .concat .., .choice .. | .concat .., .stray _ | .choice .., .empty
      | .choice .., .lineBreak | .choice .., .text _ | .choice .., .indent ..
      | .choice .., .concat .. | .choice .., .stray _ | .stray _, .empty
      | .stray _, .lineBreak | .stray _, .text _ | .stray _, .indent .. | .stray _, .concat ..
      | .stray _, .choice .. => isFalse nofun
    else isFalse fun same => agree (congrArg digest same)

instance : DecidableEq Layout := decEq

/-- No stray stands anywhere in the layout. -/
def Clean : Layout → Prop
  | .empty | .lineBreak | .text _ => True
  | .indent _ child => child.Clean
  | .concat left right => left.Clean ∧ right.Clean
  | .choice primary secondary => primary.Clean ∧ secondary.Clean
  | .stray _ => False

instance decidableClean : (layout : Layout) → Decidable layout.Clean
  | .empty | .lineBreak | .text _ => isTrue trivial
  | .indent _ child => decidableClean child
  | .concat left right =>
      have := decidableClean left
      have := decidableClean right
      inferInstanceAs (Decidable (left.Clean ∧ right.Clean))
  | .choice primary secondary =>
      have := decidableClean primary
      have := decidableClean secondary
      inferInstanceAs (Decidable (primary.Clean ∧ secondary.Clean))
  | .stray _ => isFalse id

/-- The number of nodes, a shared part counted wherever it stands. -/
def nodes : Layout → Nat
  | .empty | .lineBreak | .text _ | .stray _ => 1
  | .indent _ child => child.nodes + 1
  | .concat left right => left.nodes + right.nodes + 1
  | .choice primary secondary => primary.nodes + secondary.nodes + 1

theorem nodes_pos (layout : Layout) : 0 < layout.nodes := by
  cases layout <;> simp [nodes]

end Layout

end Typeset

import Typeset.Layout.Build

/-!
Combinators over items. An item is a layout, a text, a value that describes itself by a
layout, or anything else; the last kind is turned away when the item is used. Builders
do not look at what they are given, so all but layouts become strays there.
-/

set_option autoImplicit false

namespace Typeset

inductive Item where
  | node (layout : Layout)
  | text (content : String)
  | described (description : Build Layout) (portrait : Portrait := .plain)
  | other (value : Stray)

namespace Item

/-- The layout of an item. -/
def toLayout : Item → Build Layout
  | .node layout => return layout
  | .text content => return .text content
  | .described description _ => description
  | .other value => throw (.stray value)

/-- An item that is put into a layout as it stands. -/
def asChild : Item → Layout
  | .node layout => layout
  | .text content => .stray (.data (.str content))
  | .described _ portrait => .stray (.object portrait)
  | .other value => .stray value

end Item

namespace Layout

/-- Joins the items from the left. No items give the empty layout. -/
def fold (join : Layout → Layout → Build Layout) : List Item → Build Layout
  | [] => return .empty
  | first :: rest => do
      rest.foldlM (fun joined item => do join joined (← item.toLayout)) (← first.toLayout)

/-- The items with single spaces between them. -/
def spread (items : List Item) : Build Layout :=
  fold (fun left right => return spaceJoin left right) items

/-- The items on lines of their own. -/
def stack (items : List Item) : Build Layout :=
  fold (fun left right => return breakJoin left right) items

/-- The items with the separator and a space between them. -/
def separated (separator : String) (items : List Item) : Build Layout :=
  fold (fun left right => return spaceJoin (.concat left (.text separator)) right) items

/-- The body between delimiters: on one line with spaces inside, or on lines of its
own indented by `amount`. -/
def bracket (amount : Int) (left : String) (body : Item) (right : String) : Build Layout := do
  let inner := .indent amount (.concat .lineBreak (← body.toLayout))
  group (.concat (.text left) (.concat inner (.concat .lineBreak (.text right))))

/-- The body between parentheses: on one line without spaces inside, or with the
closing one on a line of its own. -/
def parenthesized (body : Item) : Build Layout := do
  groupWith "" (.concat (.text "(") (breakJoin (← body.toLayout) (.text ")")))

/-- The last part of a filled text, beginning with an item as it was given and with the
same item flattened. -/
structure FillTail where
  asGiven : Layout
  flattened : Layout

/-- Puts an item before the tail. It shares the line with the next item if both are
flat and fit, and else the next item starts a line. -/
def FillTail.cons (item : Layout) (tail : FillTail) : Build FillTail := do
  let flat ← flatten item
  let asGiven ← choose (spaceJoin flat tail.flattened) (breakJoin item tail.asGiven)
  let flattened ← choose (spaceJoin flat tail.flattened) (breakJoin flat tail.asGiven)
  return ⟨asGiven, flattened⟩

/-- As many items on each line as fit. The two forms of every tail are built once, from
the end, and shared. -/
def fill (items : List Item) : Build Layout := do
  let layouts ← items.mapM Item.toLayout
  match layouts.reverse with
  | [] => return .empty
  | last :: before => do
      let flatLast ← flatten last
      let tail : FillTail ← before.foldlM (fun tail item => FillTail.cons item tail)
        ⟨last, flatLast⟩
      return tail.asGiven

/-- What a layout can be asked for itself. -/
inductive Method where
  | concat (other : Item)
  | spaceJoin (other : Item)
  | breakJoin (other : Item)
  | softJoin (other : Item)
  | indent (amount : Int)
  | group
  | flatten (separator : String)

/-- A method of a layout gives what the builder of its name gives. Another item may be
anything that has a layout. -/
def Method.apply (layout : Layout) : Method → Build Layout
  | .concat other => return .concat layout (← other.toLayout)
  | .spaceJoin other => return Layout.spaceJoin layout (← other.toLayout)
  | .breakJoin other => return Layout.breakJoin layout (← other.toLayout)
  | .softJoin other => do Layout.softJoin layout (← other.toLayout)
  | .indent amount => return .indent amount layout
  | .group => Layout.group layout
  | .flatten separator => flattenWith separator layout

end Layout

end Typeset

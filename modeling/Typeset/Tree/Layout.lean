import Typeset.Layout.Combinators
import Typeset.Tree.Basic

/-!
Laying out labelled trees. The children stand in brackets after the label: on the same
line where they fit, and else in an indented block.
-/

set_option autoImplicit false

namespace Typeset.Tree

def childIndent : Int := 4

mutual

def layout : Tree → Build Layout
  | .node label [] => return .text label.text
  | .node label (first :: rest) => do
      let children ← Layout.spread (layoutItems (first :: rest))
      let block ← Layout.bracket childIndent "[" (.node children) "]"
      return Layout.spaceJoin (.text label.text) block

def layoutItems : List Tree → List Item
  | [] => []
  | child :: rest => .described (layout child) :: layoutItems rest

end

end Typeset.Tree

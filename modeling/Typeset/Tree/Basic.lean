import Typeset.Schema.Name

/-!
Labelled trees with ordered children.
-/

set_option autoImplicit false

namespace Typeset

inductive Tree where
  | node (label : Name) (children : List Tree)

namespace Tree

def label : Tree → Name
  | .node label _ => label

def children : Tree → List Tree
  | .node _ children => children

def leaf (label : Name) : Tree := .node label []

mutual

def toJson : Tree → Json
  | .node label children =>
      .obj [("label", .str label.text), ("children", .arr (toJsonList children))]

def toJsonList : List Tree → List Json
  | [] => []
  | child :: rest => toJson child :: toJsonList rest

end

def sample : Tree :=
  .node { text := "aaa" }
    [ .node { text := "bbbbb" } [leaf { text := "ccc" }, leaf { text := "dd" }],
      leaf { text := "eee" },
      .node { text := "ffff" }
        [leaf { text := "gg" }, leaf { text := "hhh" }, leaf { text := "ii" }]]

end Tree

end Typeset

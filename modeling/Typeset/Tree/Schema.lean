import Typeset.Tree.Basic

/-!
Reading labelled trees. A text stands for a leaf with that label.
-/

set_option autoImplicit false

namespace Typeset.Tree

def read (value : Json) : Check Tree :=
  match value with
  | .str content => leaf <$> (Check.name (.str content)).under (.field "label")
  | .obj fields =>
      node <$> Check.nameField fields "label" <*>
        Check.listField fields "children" fun child _smaller => read child
  | _ => .fail .notRecord
termination_by sizeOf value

end Typeset.Tree

import Typeset.Schema.Check

/-!
Names in documents: operators, labels and identifiers. A name is never empty.
-/

set_option autoImplicit false

namespace Typeset

structure Name where
  text : String
  nonempty : text ≠ "" := by decide
  deriving DecidableEq

namespace Name

def ofString? (content : String) : Option Name :=
  if empty : content = "" then none else some ⟨content, empty⟩

theorem ofString_text (name : Name) : ofString? name.text = some name := by
  simp [ofString?, name.nonempty]

/-- A name is its text. -/
theorem eq_of_text {name other : Name} (same : name.text = other.text) : name = other :=
  Option.some.inj ((ofString_text name).symm.trans ((congrArg ofString? same).trans
    (ofString_text other)))

end Name

namespace Check

def name : Json → Check Name
  | .str content =>
      match Name.ofString? content with
      | some name => .valid name
      | none => fail .emptyText
  | _ => fail .notText

def nameField (fields : List (String × Json)) (key : String) : Check Name :=
  field fields key fun value _ => name value

end Check

end Typeset

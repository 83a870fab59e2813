import Typeset.Json.Alike
import Typeset.Json.Display

/-!
What may stand where a layout belongs. Builders store what they are given as it is, so
data may end up inside a layout, and so may an object that could describe itself by a
layout but was not asked to.
-/

set_option autoImplicit false

namespace Typeset

/-- How an object is shown in a message. -/
structure Portrait where
  kind : String
  shown : String
  deriving DecidableEq, Repr

/-- Most objects have nothing particular to show. -/
def Portrait.plain : Portrait := ⟨"object", "object"⟩

inductive Stray where
  | data (value : Json)
  | object (portrait : Portrait)
  deriving DecidableEq

namespace Stray

def kindName : Stray → String
  | .data value => value.kindName
  | .object portrait => portrait.kind

def shown : Stray → String
  | .data value => value.shown
  | .object portrait => portrait.shown

/-- Whether two strays count as the same. Objects do when they show the same. -/
def alike : Stray → Stray → Bool
  | .data value, .data other => value.alike other
  | .object portrait, .object other => portrait == other
  | .data _, .object _ | .object _, .data _ => false

end Stray

end Typeset

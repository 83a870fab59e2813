import Typeset.Json.Basic

/-!
When two values count as the same. A number counts by its worth, whole or not, and a
truth value as one or zero. The order of the fields of an object does not matter.
-/

set_option autoImplicit false

namespace Typeset.Json

/-- Puts a field before the first one whose name does not come before its own. -/
def insertField (name : String) (value : Json) :
    List (String × Json) → List (String × Json)
  | [] => [(name, value)]
  | (other, held) :: rest =>
      if other < name then (other, held) :: insertField name value rest
      else (name, value) :: (other, held) :: rest

mutual

/-- The form that all values which count as the same have in common. -/
def normal : Json → Json
  | .bool value => .int (if value then 1 else 0)
  | .real value => (value.whole?.map Json.int).getD (.real value)
  | .arr items => .arr (normalItems items)
  | .obj fields => .obj (normalFields fields)
  | value => value

def normalItems : List Json → List Json
  | [] => []
  | item :: rest => item.normal :: normalItems rest

def normalFields : List (String × Json) → List (String × Json)
  | [] => []
  | (name, value) :: rest => insertField name value.normal (normalFields rest)

end

/-- Whether two values count as the same. -/
def alike (left right : Json) : Bool := left.normal = right.normal

end Typeset.Json

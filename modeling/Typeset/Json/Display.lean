import Typeset.Json.Basic
import Typeset.Text.Quoted

/-!
How a value is shown in a message: its kind, and its text with strings quoted and
the items of lists and records spelt out.
-/

set_option autoImplicit false

namespace Typeset.Json

def kindName : Json → String
  | .null => "NoneType"
  | .bool _ => "bool"
  | .int _ => "int"
  | .real _ => "float"
  | .str _ => "str"
  | .arr _ => "list"
  | .obj _ => "dict"

def flagText (value : Bool) : String := if value then "True" else "False"

mutual

/-- The text of a value in which every string is quoted. -/
def shown : Json → String
  | .null => "None"
  | .bool value => flagText value
  | .int value => toString value
  | .real value => value.text
  | .str value => Text.quoted value
  | .arr items => "[" ++ String.intercalate ", " (shownItems items) ++ "]"
  | .obj fields => "\x7b" ++ String.intercalate ", " (shownFields fields) ++ "\x7d"

def shownItems : List Json → List String
  | [] => []
  | item :: rest => shown item :: shownItems rest

def shownFields : List (String × Json) → List String
  | [] => []
  | (name, value) :: rest => (Text.quoted name ++ ": " ++ shown value) :: shownFields rest

end

/-- The text of a value that stands alone: a string is not quoted. -/
def plain : Json → String
  | .str value => value
  | value => value.shown

end Typeset.Json

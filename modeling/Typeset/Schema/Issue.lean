/-!
What is wrong with a document, and where.
-/

set_option autoImplicit false

namespace Typeset

/-- A step from a value to a part of it. A variant of a union counts as a field. -/
inductive Place where
  | field (name : String)
  | index (position : Nat)
  deriving DecidableEq, Repr

inductive Problem where
  | malformed
  | missing
  | notText
  | emptyText
  | notList
  | notRecord
  | notVariant
  | wrongKind (expected : String)
  | kindMissing
  | kindUnknown (kind : String) (expected : List String)
  | operatorMissing
  | notWhole
  | unreadableWhole
  | oversizedWhole
  | fractional
  | notFinite
  deriving DecidableEq, Repr

namespace Problem

/-- The name under which a problem is reported. -/
def code : Problem → String
  | .malformed => "json_invalid"
  | .missing => "missing"
  | .notText => "string_type"
  | .emptyText => "string_too_short"
  | .notList => "list_type"
  | .notRecord => "model_type"
  | .notVariant => "dict_type"
  | .wrongKind _ => "literal_error"
  | .kindMissing => "union_tag_not_found"
  | .kindUnknown _ _ => "union_tag_invalid"
  | .operatorMissing => "value_error"
  | .notWhole => "int_type"
  | .unreadableWhole => "int_parsing"
  | .oversizedWhole => "int_parsing_size"
  | .fractional => "int_from_float"
  | .notFinite => "finite_number"

def message : Problem → String
  | .malformed => "Invalid JSON"
  | .missing => "Field required"
  | .notText => "Input should be a valid string"
  | .emptyText => "String should have at least 1 character"
  | .notList => "Input should be a valid array"
  | .notRecord => "Input should be an object"
  | .notVariant => "Input should be an object"
  | .wrongKind expected => s!"Input should be '{expected}'"
  | .kindMissing => "Unable to extract tag using discriminator 'kind'"
  | .kindUnknown kind expected =>
      let known := String.intercalate ", " (expected.map fun tag => s!"'{tag}'")
      s!"Input tag '{kind}' found using 'kind' does not match any of the expected tags: {known}"
  | .operatorMissing => "Value error, list form must start with the operator name"
  | .notWhole => "Input should be a valid integer"
  | .unreadableWhole =>
      "Input should be a valid integer, unable to parse string as an integer"
  | .oversizedWhole => "Unable to parse input string as an integer, exceeded maximum size"
  | .fractional =>
      "Input should be a valid integer, got a number with a fractional part"
  | .notFinite => "Input should be a finite number"

end Problem

/-- A problem and the way from the document to the part that has it. -/
structure Issue where
  problem : Problem
  place : List Place
  deriving DecidableEq, Repr

end Typeset

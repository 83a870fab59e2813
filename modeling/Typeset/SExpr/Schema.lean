import Typeset.SExpr.Basic

/-!
Reading S-expressions. A call is an object with a name and arguments, or a list that
starts with the name. An argument is a whole number or a call: if it is neither, the
issues of both readings are reported.
-/

set_option autoImplicit false

namespace Typeset.Call

/-- The parts of a call in either form. -/
structure Parts where
  name : Option Json
  arguments : Option Json

/-- The parts of a value, none of them larger than it. -/
def parts (value : Json) :
    Check { parts : Parts //
      ∀ held, parts.arguments = some held → sizeOf held < sizeOf value } :=
  match value with
  | .arr (.str name :: rest) =>
      .valid ⟨⟨some (.str name), some (.arr rest)⟩, by
        intro held same
        cases same
        simp only [Json.arr.sizeOf_spec, List.cons.sizeOf_spec, Json.str.sizeOf_spec]
        omega⟩
  | .arr _ => .fail .operatorMissing
  | .obj fields =>
      .valid ⟨⟨Json.field? fields "name", Json.field? fields "args"⟩, by
        intro held same
        have := Json.size_of_field_lt same
        simp only [Json.obj.sizeOf_spec]
        omega⟩
  | _ => .fail .notRecord

def Parts.readName (parts : Parts) : Check Name :=
  match parts.name with
  | none => (Check.fail .missing).under (.field "name")
  | some value => (Check.name value).under (.field "name")

mutual

def read (value : Json) : Check Call :=
  (parts value).andThen fun ⟨parts, _smaller⟩ =>
    Call.mk <$> parts.readName <*>
      match _held : parts.arguments with
      | none => .valid []
      | some arguments =>
          (Check.list arguments fun item _less => readArgument item).under (.field "args")
termination_by (sizeOf value, 0)
decreasing_by exact Prod.Lex.left _ _ (Nat.lt_trans _less (_smaller arguments _held))

def readArgument (value : Json) : Check SExpr :=
  Check.either ("int", SExpr.atom <$> Check.whole value)
    ("Call", fun _ => toExpr <$> read value)
termination_by (sizeOf value, 1)

end

end Typeset.Call

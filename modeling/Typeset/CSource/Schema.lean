import Typeset.CSource.Basic

/-!
Reading C documents. Types, expressions, declarations and statements are unions: a
record names its kind, and the kind decides which fields it has. Issues inside a
variant are reported below the name of its kind.
-/

set_option autoImplicit false

namespace Typeset.CSource

/-- Reads a record whose kind is one of several, below the name of that kind. -/
def readUnion {κ α : Type} (tag : κ → String) (kinds : List κ) (value : Json)
    (read : κ → (fields : List (String × Json)) → sizeOf fields < sizeOf value → Check α) :
    Check α :=
  match value, read with
  | .obj fields, read =>
      (Check.chooseKind tag kinds fields).andThen fun kind =>
        (read kind fields (by simp only [Json.obj.sizeOf_spec]; omega)).under
          (.field (tag kind))
  | _, _ => .fail .notVariant

/-- Reads a record that must be of one kind. The kind itself may be left out. -/
def readVariant {κ α : Type} (tag : κ → String) (kind : κ) (value : Json)
    (read : κ → List (String × Json) → Check α) : Check α :=
  Check.record value fun fields =>
    (fun _ variant => variant) <$> Check.expectKind (tag kind) fields <*> read kind fields

mutual

def CType.read (value : Json) : Check CType :=
  readUnion TypeKind.tag TypeKind.all value fun kind fields _smaller =>
    CType.readFields kind fields
termination_by sizeOf value

def CType.readFields (kind : TypeKind) (fields : List (String × Json)) : Check CType :=
  match kind with
  | .int => .valid .int
  | .char => .valid .char
  | .struct => .struct <$> Check.nameField fields "name"
  | .enum => .enum <$> Check.nameField fields "name"
  | .pointer => .pointer <$> Check.field fields "target" fun value _smaller => CType.read value
termination_by sizeOf fields

end

mutual

def Expr.read (value : Json) : Check Expr :=
  readUnion ExprKind.tag ExprKind.all value fun kind fields _smaller =>
    Expr.readFields kind fields
termination_by sizeOf value

def Expr.readFields (kind : ExprKind) (fields : List (String × Json)) : Check Expr :=
  match kind with
  | .int => .int <$> Check.field fields "value" fun value _ => Check.whole value
  | .str => .str <$> Check.field fields "value" fun value _ => Check.text value
  | .ident => .ident <$> Check.nameField fields "name"
  | .call =>
      .call <$> Check.nameField fields "function" <*>
        Check.listField fields "args" fun value _smaller => Expr.read value
termination_by sizeOf fields

end

def Member.read (value : Json) : Check Member :=
  Check.record value fun fields =>
    Member.mk <$> (Check.field fields "type" fun type _ => CType.read type) <*>
      Check.nameField fields "name"

mutual

def Declaration.read (value : Json) : Check Declaration :=
  readUnion DeclarationKind.tag DeclarationKind.all value fun kind fields _smaller =>
    Declaration.readFields kind fields
termination_by sizeOf value

def Declaration.readFields (kind : DeclarationKind) (fields : List (String × Json)) :
    Check Declaration :=
  match kind with
  | .struct =>
      .struct <$> Check.nameField fields "name" <*>
        Check.listField fields "members" fun value _ => Member.read value
  | .enum =>
      .enum <$> Check.nameField fields "name" <*>
        Check.listField fields "variants" fun value _ => Check.text value
  | .var =>
      .var <$> (Check.field fields "type" fun type _ => CType.read type) <*>
        Check.nameField fields "name"
  | .function =>
      .function <$> Check.nameField fields "name" <*>
        (Check.field fields "returns" fun type _ => CType.read type) <*>
        (Check.listField fields "params" fun value _ => Member.read value) <*>
        Check.listField fields "body" fun value _smaller => Statement.read value
termination_by sizeOf fields

def Statement.read (value : Json) : Check Statement :=
  readUnion StatementKind.tag StatementKind.all value fun kind fields _smaller =>
    Statement.readFields kind fields
termination_by sizeOf value

def Statement.readFields (kind : StatementKind) (fields : List (String × Json)) :
    Check Statement :=
  match kind with
  | .decl => .decl <$> Check.field fields "decl" fun value _smaller => Declaration.read value
  | .assign =>
      .assign <$> Check.nameField fields "target" <*>
        Check.field fields "value" fun value _ => Expr.read value
  | .expr => .expr <$> Check.field fields "expr" fun value _ => Expr.read value
  | .returns => .returns <$> Check.field fields "value" fun value _ => Expr.read value
termination_by sizeOf fields

end

def Program.read (value : Json) : Check Program :=
  Check.record value fun fields =>
    Program.mk <$> Check.listField fields "declarations" fun declaration _ =>
      Declaration.read declaration

end Typeset.CSource

import Typeset.Schema.Name

/-!
A subset of C: types, expressions, declarations, statements and translation units.
-/

set_option autoImplicit false

namespace Typeset.CSource

inductive CType where
  | int
  | char
  | struct (name : Name)
  | enum (name : Name)
  | pointer (target : CType)
  deriving DecidableEq

inductive Expr where
  | int (value : Int)
  | str (value : String)
  | ident (name : Name)
  | call (function : Name) (arguments : List Expr)

/-- A member of a struct or a parameter of a function. -/
structure Member where
  type : CType
  name : Name
  deriving DecidableEq

mutual

inductive Declaration where
  | struct (name : Name) (members : List Member)
  | enum (name : Name) (variants : List String)
  | var (type : CType) (name : Name)
  | function (name : Name) (returns : CType) (params : List Member) (body : List Statement)

inductive Statement where
  | decl (declaration : Declaration)
  | assign (target : Name) (value : Expr)
  | expr (expr : Expr)
  | returns (value : Expr)

end

/-- A translation unit. -/
structure Program where
  declarations : List Declaration

/-! The kinds of each union, in the order in which messages list them. -/

inductive TypeKind where
  | int
  | char
  | struct
  | enum
  | pointer
  deriving DecidableEq

inductive ExprKind where
  | int
  | str
  | ident
  | call
  deriving DecidableEq

inductive DeclarationKind where
  | struct
  | enum
  | var
  | function
  deriving DecidableEq

inductive StatementKind where
  | decl
  | assign
  | expr
  | returns
  deriving DecidableEq

def TypeKind.all : List TypeKind := [.int, .char, .struct, .enum, .pointer]

def TypeKind.tag : TypeKind → String
  | .int => "int"
  | .char => "char"
  | .struct => "struct"
  | .enum => "enum"
  | .pointer => "pointer"

def ExprKind.all : List ExprKind := [.int, .str, .ident, .call]

def ExprKind.tag : ExprKind → String
  | .int => "int"
  | .str => "str"
  | .ident => "ident"
  | .call => "call"

def DeclarationKind.all : List DeclarationKind := [.struct, .enum, .var, .function]

def DeclarationKind.tag : DeclarationKind → String
  | .struct => "struct"
  | .enum => "enum"
  | .var => "var"
  | .function => "function"

def StatementKind.all : List StatementKind := [.decl, .assign, .expr, .returns]

def StatementKind.tag : StatementKind → String
  | .decl => "decl"
  | .assign => "assign"
  | .expr => "expr"
  | .returns => "return"

/-! The data of each form, every field written out. -/

def ofKind (tag : String) (fields : List (String × Json)) : Json :=
  .obj (("kind", .str tag) :: fields)

def CType.toJson : CType → Json
  | .int => ofKind TypeKind.int.tag []
  | .char => ofKind TypeKind.char.tag []
  | .struct name => ofKind TypeKind.struct.tag [("name", .str name.text)]
  | .enum name => ofKind TypeKind.enum.tag [("name", .str name.text)]
  | .pointer target => ofKind TypeKind.pointer.tag [("target", target.toJson)]

mutual

def Expr.toJson : Expr → Json
  | .int value => ofKind ExprKind.int.tag [("value", .int value)]
  | .str value => ofKind ExprKind.str.tag [("value", .str value)]
  | .ident name => ofKind ExprKind.ident.tag [("name", .str name.text)]
  | .call function arguments =>
      ofKind ExprKind.call.tag
        [("function", .str function.text), ("args", .arr (Expr.toJsonList arguments))]

def Expr.toJsonList : List Expr → List Json
  | [] => []
  | expr :: rest => expr.toJson :: Expr.toJsonList rest

end

def Member.toJson (member : Member) : Json :=
  .obj [("type", member.type.toJson), ("name", .str member.name.text)]

mutual

def Declaration.toJson : Declaration → Json
  | .struct name members =>
      ofKind DeclarationKind.struct.tag
        [("name", .str name.text), ("members", .arr (members.map Member.toJson))]
  | .enum name variants =>
      ofKind DeclarationKind.enum.tag
        [("name", .str name.text), ("variants", .arr (variants.map .str))]
  | .var type name =>
      ofKind DeclarationKind.var.tag [("type", type.toJson), ("name", .str name.text)]
  | .function name returns params body =>
      ofKind DeclarationKind.function.tag
        [("name", .str name.text), ("returns", returns.toJson),
          ("params", .arr (params.map Member.toJson)),
          ("body", .arr (Statement.toJsonList body))]

def Statement.toJson : Statement → Json
  | .decl declaration => ofKind StatementKind.decl.tag [("decl", declaration.toJson)]
  | .assign target value =>
      ofKind StatementKind.assign.tag [("target", .str target.text), ("value", value.toJson)]
  | .expr expr => ofKind StatementKind.expr.tag [("expr", expr.toJson)]
  | .returns value => ofKind StatementKind.returns.tag [("value", value.toJson)]

def Statement.toJsonList : List Statement → List Json
  | [] => []
  | statement :: rest => statement.toJson :: Statement.toJsonList rest

end

def Program.toJson (program : Program) : Json :=
  .obj [("declarations", .arr (program.declarations.map Declaration.toJson))]

end Typeset.CSource

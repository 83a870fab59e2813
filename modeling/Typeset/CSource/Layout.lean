import Typeset.CSource.Basic
import Typeset.Layout.Combinators

/-!
Laying out C source. Bodies and member lists stand in braces, on one line where they
fit and else in an indented block. The star of a pointer stands on its type. In a
string literal the backslash and the double quote are escaped.
-/

set_option autoImplicit false

namespace Typeset.CSource

open Layout (spaceJoin separated stack bracket parenthesized group)

def blockIndent : Int := 4

def CType.layout : CType → Layout
  | .int => .text "int"
  | .char => .text "char"
  | .struct name => spaceJoin (.text "struct") (.text name.text)
  | .enum name => spaceJoin (.text "enum") (.text name.text)
  | .pointer target => .concat target.layout (.text "*")

def escapedChar (c : Char) : List Char :=
  if c = '\\' ∨ c = '"' then ['\\', c] else [c]

/-- A string literal with its quotes. -/
def quotedString (value : String) : String :=
  String.ofList ('"' :: value.toList.flatMap escapedChar ++ ['"'])

mutual

def Expr.layout : Expr → Build Layout
  | .int value => return .text (toString value)
  | .str value => return .text (quotedString value)
  | .ident name => return .text name.text
  | .call function arguments => do
      let list ← separated "," (Expr.layoutItems arguments)
      return .concat (.text function.text) (← parenthesized (.node list))

def Expr.layoutItems : List Expr → List Item
  | [] => []
  | expr :: rest => .described expr.layout :: Expr.layoutItems rest

end

def Member.layout (member : Member) : Layout :=
  spaceJoin member.type.layout (.text member.name.text)

/-- The layout with a semicolon after it. -/
def terminated (layout : Layout) : Layout := .concat layout (.text ";")

/-- A keyword, a name and a body in braces. -/
def definition (keyword : String) (name : Name) (body : Layout) : Build Layout := do
  let head := spaceJoin (.text keyword) (.text name.text)
  let whole := spaceJoin head (← bracket blockIndent "\x7b" (.node body) "\x7d")
  return terminated (← group whole)

mutual

def Declaration.layout : Declaration → Build Layout
  | .struct name members => do
      let body ← stack (members.map fun member => .node (terminated member.layout))
      definition "struct" name body
  | .enum name variants => do
      let body ← separated "," (variants.map .text)
      definition "enum" name body
  | .var type name => return terminated (spaceJoin type.layout (.text name.text))
  | .function name returns params body => do
      let signature := spaceJoin returns.layout (.text name.text)
      let list ← separated "," (params.map fun param => .node param.layout)
      let parameters ← parenthesized (.node list)
      let statements ← stack (Statement.layoutItems body)
      let block ← bracket blockIndent "\x7b" (.node statements) "\x7d"
      return .concat signature (spaceJoin parameters block)

def Statement.layout : Statement → Build Layout
  | .decl declaration => declaration.layout
  | .assign target value => do
      let assignment := spaceJoin (.text target.text) (.text "=")
      return terminated (spaceJoin assignment (← value.layout))
  | .expr expr => return terminated (← expr.layout)
  | .returns value => return terminated (spaceJoin (.text "return") (← value.layout))

def Statement.layoutItems : List Statement → List Item
  | [] => []
  | statement :: rest => .described statement.layout :: Statement.layoutItems rest

end

def Program.layout (program : Program) : Build Layout :=
  stack (program.declarations.map fun declaration => .described declaration.layout)

end Typeset.CSource

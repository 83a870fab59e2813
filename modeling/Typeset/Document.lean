import Typeset.CSource.Layout
import Typeset.CSource.Sample
import Typeset.CSource.Schema
import Typeset.Json.Reader
import Typeset.SExpr.Layout
import Typeset.SExpr.Schema
import Typeset.Tree.Layout
import Typeset.Tree.Schema
import Typeset.Words

/-!
Documents of any model: what is kept of a loaded document is its data, every field
written out, and how it is laid out. The layout of an expression needs the step by
which arguments are indented.
-/

set_option autoImplicit false

namespace Typeset

structure Document where
  data : Json
  layout : (step : Int) → Build Layout

namespace Document

def ofCall (call : Call) : Document := ⟨call.toJson, call.layout⟩

def ofTree (tree : Tree) : Document := ⟨tree.toJson, fun _ => tree.layout⟩

def ofWords (words : Words) : Document := ⟨words.toJson, fun _ => words.layout⟩

def ofType (type : CSource.CType) : Document := ⟨type.toJson, fun _ => return type.layout⟩

def ofExpr (expr : CSource.Expr) : Document := ⟨expr.toJson, fun _ => expr.layout⟩

def ofMember (member : CSource.Member) : Document :=
  ⟨member.toJson, fun _ => return member.layout⟩

def ofDeclaration (declaration : CSource.Declaration) : Document :=
  ⟨declaration.toJson, fun _ => declaration.layout⟩

def ofStatement (statement : CSource.Statement) : Document :=
  ⟨statement.toJson, fun _ => statement.layout⟩

def ofProgram (program : CSource.Program) : Document :=
  ⟨program.toJson, fun _ => program.layout⟩

end Document

/-- Why a document could not be loaded: the model and the issues. -/
structure Invalid where
  model : String
  issues : List Issue
  deriving DecidableEq

/-- How many issues there are. What they are is told at greater length elsewhere. -/
def Invalid.summary (invalid : Invalid) : String :=
  let count := invalid.issues.length
  s!"{count} validation error" ++ if count = 1 then "" else "s"

/-- The form that a document must have. -/
structure Model where
  name : String
  read : Json → Check Document

namespace Model

/-- Reads the text as JSON and checks the value against the model. Text that is no JSON
has that one issue. -/
def load (model : Model) (text : String) : Except Invalid Document :=
  match Json.read? Json.documentLimits text with
  | none => .error ⟨model.name, [⟨.malformed, []⟩]⟩
  | some value =>
      match model.read value with
      | .valid document => .ok document
      | .invalid issues => .error ⟨model.name, issues⟩

def call : Model := ⟨"Call", fun value => Document.ofCall <$> Call.read value⟩

def tree : Model := ⟨"TreeNode", fun value => Document.ofTree <$> Tree.read value⟩

def words : Model := ⟨"Words", fun value => Document.ofWords <$> Words.read value⟩

def program : Model :=
  ⟨"Program", fun value => Document.ofProgram <$> CSource.Program.read value⟩

def member : Model := ⟨"Member", fun value => Document.ofMember <$> CSource.Member.read value⟩

open CSource in
def ofType (name : String) (kind : TypeKind) : Model :=
  ⟨name, fun value =>
    Document.ofType <$> readVariant TypeKind.tag kind value CType.readFields⟩

open CSource in
def ofExpr (name : String) (kind : ExprKind) : Model :=
  ⟨name, fun value =>
    Document.ofExpr <$> readVariant ExprKind.tag kind value Expr.readFields⟩

open CSource in
def ofDeclaration (name : String) (kind : DeclarationKind) : Model :=
  ⟨name, fun value =>
    Document.ofDeclaration <$>
      readVariant DeclarationKind.tag kind value Declaration.readFields⟩

open CSource in
def ofStatement (name : String) (kind : StatementKind) : Model :=
  ⟨name, fun value =>
    Document.ofStatement <$> readVariant StatementKind.tag kind value Statement.readFields⟩

/-- All models of the bundled documents and of their parts. -/
def all : List Model :=
  [ call, tree,
    ofType "IntType" .int, ofType "CharType" .char, ofType "StructType" .struct,
    ofType "EnumType" .enum, ofType "PointerType" .pointer,
    ofExpr "IntLiteral" .int, ofExpr "StringLiteral" .str, ofExpr "Identifier" .ident,
    ofExpr "CallExpr" .call, member,
    ofDeclaration "StructDecl" .struct, ofDeclaration "EnumDecl" .enum,
    ofDeclaration "VarDecl" .var, ofDeclaration "FunctionDecl" .function,
    ofStatement "DeclStmt" .decl, ofStatement "AssignStmt" .assign,
    ofStatement "ExprStmt" .expr, ofStatement "ReturnStmt" .returns, program ]

def named? (name : String) : Option Model := all.find? fun model => model.name == name

end Model

end Typeset

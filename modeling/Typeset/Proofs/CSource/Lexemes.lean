import Typeset.Proofs.CSource.Lexer
import Typeset.Proofs.Text.Code

/-!
The lexemes of C source and the names in it, said by recursion on the program.
-/

set_option autoImplicit false

namespace Typeset.CSource

def CType.lexemes : CType → List Lexeme
  | .int => [.word "int"]
  | .char => [.word "char"]
  | .struct name => [.word "struct", .word name.text]
  | .enum name => [.word "enum", .word name.text]
  | .pointer target => target.lexemes ++ [.mark '*']

/-- The parts with commas between them. -/
def listed (parts : List (List Lexeme)) : List Lexeme := [.mark ','].intercalate parts

mutual

def Expr.lexemes : Expr → List Lexeme
  | .int value => [.number value]
  | .str value => [.quoted value]
  | .ident name => [.word name.text]
  | .call function arguments =>
      .word function.text :: .mark '(' :: (listed (Expr.lexemesEach arguments) ++ [.mark ')'])

def Expr.lexemesEach : List Expr → List (List Lexeme)
  | [] => []
  | expr :: rest => expr.lexemes :: Expr.lexemesEach rest

end

def Member.lexemes (member : Member) : List Lexeme :=
  member.type.lexemes ++ [.word member.name.text]

/-- A member of a struct, with its semicolon. -/
def Member.fieldLexemes (member : Member) : List Lexeme := member.lexemes ++ [.mark ';']

/-- A keyword, a name and something in braces. -/
def definitionLexemes (keyword : String) (name : Name) (body : List Lexeme) : List Lexeme :=
  .word keyword :: .word name.text :: .mark '{' :: (body ++ [.mark '}', .mark ';'])

mutual

def Declaration.lexemes : Declaration → List Lexeme
  | .struct name members => definitionLexemes "struct" name (members.flatMap Member.fieldLexemes)
  | .enum name variants =>
      definitionLexemes "enum" name (listed (variants.map fun variant => [.word variant]))
  | .var type name => type.lexemes ++ [.word name.text, .mark ';']
  | .function name returns params body =>
      returns.lexemes ++ .word name.text :: .mark '(' :: (listed (params.map Member.lexemes) ++
        .mark ')' :: .mark '{' :: (Statement.lexemesAll body ++ [.mark '}']))

def Statement.lexemes : Statement → List Lexeme
  | .decl declaration => declaration.lexemes
  | .assign target value => .word target.text :: .mark '=' :: (value.lexemes ++ [.mark ';'])
  | .expr expr => expr.lexemes ++ [.mark ';']
  | .returns value => .word "return" :: (value.lexemes ++ [.mark ';'])

def Statement.lexemesAll : List Statement → List Lexeme
  | [] => []
  | statement :: rest => statement.lexemes ++ Statement.lexemesAll rest

end

def Program.lexemes (program : Program) : List Lexeme :=
  program.declarations.flatMap Declaration.lexemes

/-! All names that are written in a program. -/

def CType.names : CType → List String
  | .int => []
  | .char => []
  | .struct name => [name.text]
  | .enum name => [name.text]
  | .pointer target => target.names

mutual

def Expr.names : Expr → List String
  | .int _ => []
  | .str _ => []
  | .ident name => [name.text]
  | .call function arguments => function.text :: Expr.namesAll arguments

def Expr.namesAll : List Expr → List String
  | [] => []
  | expr :: rest => expr.names ++ Expr.namesAll rest

end

def Member.names (member : Member) : List String := member.name.text :: member.type.names

mutual

def Declaration.names : Declaration → List String
  | .struct name members => name.text :: members.flatMap Member.names
  | .enum name variants => name.text :: variants
  | .var type name => name.text :: type.names
  | .function name returns params body =>
      name.text :: (returns.names ++ params.flatMap Member.names ++ Statement.namesAll body)

def Statement.names : Statement → List String
  | .decl declaration => declaration.names
  | .assign target value => target.text :: value.names
  | .expr expr => expr.names
  | .returns value => value.names

def Statement.namesAll : List Statement → List String
  | [] => []
  | statement :: rest => statement.names ++ Statement.namesAll rest

end

def Program.names (program : Program) : List String :=
  program.declarations.flatMap Declaration.names

/-- All the names are identifiers. Some of them may look like keywords. -/
def Named (names : List String) : Prop := ∀ name ∈ names, isIdentifier name = true

instance (names : List String) : Decidable (Named names) :=
  inferInstanceAs (Decidable (∀ name ∈ names, isIdentifier name = true))

theorem named_cons {name : String} {rest : List String} :
    Named (name :: rest) ↔ isIdentifier name = true ∧ Named rest :=
  List.forall_mem_cons

theorem named_append {before after : List String} :
    Named (before ++ after) ↔ Named before ∧ Named after :=
  List.forall_mem_append

theorem named_flat_map {α : Type} {items : List α} {names : α → List String} :
    Named (items.flatMap names) ↔ ∀ item ∈ items, Named (names item) :=
  List.forall_mem_flatMap

theorem expr_names_all (exprs : List Expr) : Expr.namesAll exprs = exprs.flatMap Expr.names :=
  Text.all_eq_flat_map rfl (fun _ _ => rfl) exprs

theorem expr_lexemes_each (exprs : List Expr) :
    Expr.lexemesEach exprs = exprs.map Expr.lexemes := by
  induction exprs with
  | nil => rfl
  | cons expr rest ih => rw [Expr.lexemesEach, ih, List.map_cons]

theorem statement_names_all (statements : List Statement) :
    Statement.namesAll statements = statements.flatMap Statement.names :=
  Text.all_eq_flat_map rfl (fun _ _ => rfl) statements

theorem statement_lexemes_all (statements : List Statement) :
    Statement.lexemesAll statements = statements.flatMap Statement.lexemes :=
  Text.all_eq_flat_map rfl (fun _ _ => rfl) statements

end Typeset.CSource

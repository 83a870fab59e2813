import Typeset.Proofs.CSource.Carried
import Typeset.Proofs.CSource.Parts

/-!
C source can be told from its lexemes. Names may look like keywords, so a declaration is not
known by its words but by its first mark, and a statement by its first two lexemes. With the
layouts that carry the lexemes this shows that no two programs with identifiers for names print
alike: `Program.printed_lexemes`.
-/

set_option autoImplicit false

namespace Typeset.CSource

open Text (Code)

/-! The kinds of declarations and statements, as their lexemes show them. -/

/-- The lexeme is a mark that no type has. -/
def endsType : Lexeme → Bool
  | .mark c => c != '*'
  | _ => false

theorem find_behind_type
    (type : CType)
    (name : Name)
    {c : Char}
    (ends : endsType (.mark c) = true)
    (rest : List Lexeme) :
    (type.lexemes ++ .word name.text :: .mark c :: rest).find? endsType = some (.mark c) := by
  have none : type.lexemes.find? endsType = none := by
    rw [List.find?_eq_none]
    intro lexeme inside found
    cases lexeme with
    | mark other =>
        rw [type.only_stars inside] at found
        cases found
    | _ => cases found
  rw [List.find?_append, none, Option.none_or, List.find?_cons_of_neg Bool.false_ne_true,
    List.find?_cons_of_pos ends]

/-- How a type goes on, or what stands behind it. -/
def Follows (lexeme : Lexeme) : Prop := lexeme = .mark '*' ∨ IsWord lexeme

theorem type_begins
    (type : CType)
    {next : Lexeme}
    (follows : Follows next)
    (rest : List Lexeme) :
    ∃ keyword second others, type.lexemes ++ next :: rest = .word keyword :: second :: others ∧
      keyword ≠ "return" ∧ Follows second := by
  induction type generalizing next rest with
  | int => exact ⟨_, _, _, rfl, by decide, follows⟩
  | char => exact ⟨_, _, _, rfl, by decide, follows⟩
  | struct name => exact ⟨_, _, _, rfl, by decide, .inr ⟨_, rfl⟩⟩
  | enum name => exact ⟨_, _, _, rfl, by decide, .inr ⟨_, rfl⟩⟩
  | pointer target ih =>
      rw [CType.lexemes, List.append_assoc]
      exact ih (.inl rfl) _

namespace Declaration

def kind : Declaration → DeclarationKind
  | .struct .. => .struct
  | .enum .. => .enum
  | .var .. => .var
  | .function .. => .function

/-- The first mark that no type has stands behind the name. -/
def kindOf (lexemes : List Lexeme) : DeclarationKind :=
  match lexemes.find? endsType with
  | some (.mark ';') => .var
  | some (.mark '(') => .function
  | _ => if lexemes.head? = some (.word "struct") then .struct else .enum

theorem kind_shown (declaration : Declaration) (rest : List Lexeme) :
    kindOf (declaration.lexemes ++ rest) = declaration.kind := by
  cases declaration with
  | struct name members => rfl
  | enum name variants => rfl
  | var type name =>
      rw [lexemes, List.append_assoc, kindOf]
      simp only [List.cons_append, find_behind_type type name (rfl : endsType (.mark ';') = true)]
      rfl
  | function name returns params body =>
      rw [lexemes, List.append_assoc, kindOf]
      simp only [List.cons_append, find_behind_type returns name (rfl : endsType (.mark '(') = true)]
      rfl

theorem lexemes_begin (declaration : Declaration) :
    ∃ keyword second others, declaration.lexemes = .word keyword :: second :: others ∧
      keyword ≠ "return" ∧ Follows second := by
  cases declaration with
  | struct name members => exact ⟨_, _, _, rfl, by decide, .inr ⟨_, rfl⟩⟩
  | enum name variants => exact ⟨_, _, _, rfl, by decide, .inr ⟨_, rfl⟩⟩
  | var type name => exact type_begins type (.inr ⟨name.text, rfl⟩) _
  | function name returns params body => exact type_begins returns (.inr ⟨name.text, rfl⟩) _

def code : Code Declaration Lexeme where
  tokens := lexemes
  valid _ := True
  starts := IsWord
  more _ := False
  begins := by
    intro declaration _
    obtain ⟨keyword, second, others, form, -⟩ := declaration.lexemes_begin
    exact ⟨.word keyword, second :: others, form, keyword, rfl⟩
  fresh _ _ := id

end Declaration

namespace Statement

def kind : Statement → StatementKind
  | .decl _ => .decl
  | .assign .. => .assign
  | .expr _ => .expr
  | .returns _ => .returns

/-- The second lexeme tells the kind, but for words and literals, which may follow a type or
the keyword of a return. -/
def kindOf : (first second : Lexeme) → StatementKind
  | _, .mark c => if c = '=' then .assign else if c = '*' then .decl else .expr
  | first, _ => if first = .word "return" then .returns else .decl

theorem expr_begins (expr : Expr) (rest : List Lexeme) :
    ∃ first c others, expr.lexemes ++ .mark ';' :: rest = first :: .mark c :: others ∧
      (c = ';' ∨ c = '(') := by
  cases expr with
  | int value => exact ⟨_, _, _, rfl, .inl rfl⟩
  | str value => exact ⟨_, _, _, rfl, .inl rfl⟩
  | ident name => exact ⟨_, _, _, rfl, .inl rfl⟩
  | call function arguments => exact ⟨_, _, _, rfl, .inr rfl⟩

theorem kind_of_no_mark {second : Lexeme} (first : Lexeme) (other : ∀ c, second ≠ .mark c) :
    kindOf first second = if first = .word "return" then .returns else .decl := by
  cases second with
  | mark c => exact absurd rfl (other c)
  | _ => rfl

theorem kind_shown (statement : Statement) (rest : List Lexeme) :
    ∃ first second others, statement.lexemes ++ rest = first :: second :: others ∧
      kindOf first second = statement.kind := by
  cases statement with
  | decl declaration =>
      obtain ⟨keyword, second, others, form, notReturn, follows⟩ := declaration.lexemes_begin
      refine ⟨.word keyword, second, others ++ rest, ?_, ?_⟩
      · rw [lexemes, form]
        rfl
      rcases follows with rfl | ⟨name, rfl⟩
      · rfl
      · exact if_neg fun same => notReturn (Lexeme.word.inj same)
  | assign target value => exact ⟨_, _, _, rfl, rfl⟩
  | expr expr =>
      obtain ⟨first, c, others, form, marks⟩ := expr_begins expr rest
      refine ⟨first, .mark c, others, ?_, ?_⟩
      · rw [lexemes, List.append_assoc]
        exact form
      rcases marks with rfl | rfl <;> rfl
  | returns value =>
      obtain ⟨second, others, form, noMark⟩ := value.lexemes_begin
      refine ⟨.word "return", second, others ++ [.mark ';'] ++ rest, ?_, ?_⟩
      · rw [lexemes, form]
        rfl
      · exact (kind_of_no_mark _ noMark).trans (if_pos rfl)

theorem kind_eq
    {statement other : Statement}
    {before after : List Lexeme}
    (same : statement.lexemes ++ before = other.lexemes ++ after) :
    statement.kind = other.kind := by
  obtain ⟨first, second, rest, form, kind⟩ := statement.kind_shown before
  obtain ⟨otherFirst, otherSecond, others, otherForm, otherKind⟩ := other.kind_shown after
  rw [form, otherForm] at same
  cases same
  exact kind.symm.trans otherKind

theorem lexemes_begin (statement : Statement) :
    ∃ first rest, statement.lexemes = first :: rest ∧ ∀ c, first ≠ .mark c := by
  cases statement with
  | decl declaration =>
      obtain ⟨keyword, second, others, form, -⟩ := declaration.lexemes_begin
      exact ⟨.word keyword, second :: others, form, nofun⟩
  | assign target value => exact ⟨_, _, rfl, nofun⟩
  | expr expr =>
      obtain ⟨first, rest, form, noMark⟩ := expr.lexemes_begin
      refine ⟨first, rest ++ [.mark ';'], ?_, noMark⟩
      rw [lexemes, form]
      rfl
  | returns value => exact ⟨_, _, rfl, nofun⟩

def code : Code Statement Lexeme where
  tokens := lexemes
  valid _ := True
  starts lexeme := ∀ c, lexeme ≠ .mark c
  more _ := False
  begins statement _ := statement.lexemes_begin
  fresh _ _ := id

end Statement

theorem definition_determined
    {keyword otherKeyword : String}
    {name other : Name}
    {body otherBody before after : List Lexeme}
    (same : definitionLexemes keyword name body ++ before =
      definitionLexemes otherKeyword other otherBody ++ after) :
    name = other ∧ body ++ .mark '}' :: .mark ';' :: before =
      otherBody ++ .mark '}' :: .mark ';' :: after := by
  simp only [definitionLexemes, List.cons_append, List.append_assoc, List.nil_append,
    List.cons.injEq, Lexeme.word.injEq, true_and] at same
  obtain ⟨-, text, bodies⟩ := same
  exact ⟨Name.eq_of_text text, bodies⟩

theorem typed_determined
    {type otherType : CType}
    {name other : Name}
    {before after : List Lexeme}
    (same : type.lexemes ++ .word name.text :: before =
      otherType.lexemes ++ .word other.text :: after) :
    type = otherType ∧ name = other ∧ before = after := by
  have members : Member.lexemes ⟨type, name⟩ ++ before =
      Member.lexemes ⟨otherType, other⟩ ++ after := by
    rw [Member.lexemes, Member.lexemes, List.append_assoc, List.append_assoc]
    exact same
  obtain ⟨form, behind⟩ := Member.determined ⟨type, name⟩ ⟨otherType, other⟩ _ _ trivial
    (fun _ _ => id) (fun _ _ => id) members
  cases form
  exact ⟨rfl, rfl, behind⟩

theorem fields_end (rest : List Lexeme) : Member.fieldCode.Ends (.mark '}' :: rest) :=
  Code.ends_cons (mark_is_no_word '}') id rest

theorem variants_end (rest : List Lexeme) : variantCode.Ends (.mark '}' :: rest) :=
  Code.ends_cons (mark_is_no_word '}') id rest

theorem params_end (rest : List Lexeme) : Member.code.Ends (.mark ')' :: rest) :=
  Code.ends_cons (mark_is_no_word ')') id rest

theorem statements_end (rest : List Lexeme) : Statement.code.Ends (.mark '}' :: rest) := by
  have noStatement : ¬Statement.code.starts (.mark '}') := fun starts => starts '}' rfl
  exact Code.ends_cons noStatement id rest

mutual

theorem declaration_determined (declaration : Declaration) :
    Declaration.code.Determines declaration := by
  intro other before after _ _ _ same
  change Declaration.lexemes _ ++ _ = Declaration.lexemes _ ++ _ at same
  -- The kinds agree, so only one case in each row can be met.
  have kinds : declaration.kind = other.kind := by
    rw [← declaration.kind_shown before, same, other.kind_shown after]
  cases declaration with
  | struct name members =>
      cases other with
      | struct otherName others =>
          obtain ⟨rfl, bodies⟩ := definition_determined same
          obtain ⟨rfl, behind⟩ := Member.fieldCode.items_determined
            (fun member _ => member.field_determined) (fun _ _ => trivial) (fun _ _ => trivial)
            (fields_end _) (fields_end _) bodies
          cases behind
          exact ⟨rfl, rfl⟩
      | _ => cases kinds
  | enum name variants =>
      cases other with
      | enum otherName others =>
          obtain ⟨rfl, bodies⟩ := definition_determined same
          obtain ⟨rfl, behind⟩ := variantCode.separated_determined
            (fun variant _ => variant_determined variant) (fun _ _ => trivial)
            (fun _ _ => trivial) id (variants_end _) (variants_end _)
            (comma_free (by decide) _) (comma_free (by decide) _) bodies
          cases behind
          exact ⟨rfl, rfl⟩
      | _ => cases kinds
  | var type name =>
      cases other with
      | var otherType otherName =>
          simp only [Declaration.lexemes, List.append_assoc, List.cons_append] at same
          obtain ⟨rfl, rfl, behind⟩ := typed_determined same
          cases behind
          exact ⟨rfl, rfl⟩
      | _ => cases kinds
  | function name returns params body =>
      cases other with
      | function otherName otherReturns others otherBody =>
          simp only [Declaration.lexemes, statement_lexemes_all, listed, List.append_assoc,
            List.cons_append, List.nil_append] at same
          obtain ⟨rfl, rfl, behind⟩ := typed_determined same
          obtain ⟨rfl, following⟩ := Member.code.separated_determined
            (fun param _ => param.determined) (fun _ _ => trivial) (fun _ _ => trivial) id
            (params_end _) (params_end _) (comma_free (by decide) _) (comma_free (by decide) _)
            (List.cons.inj behind).2
          obtain ⟨rfl, last⟩ := Statement.code.items_determined (statements_determined body)
            (fun _ _ => trivial) (fun _ _ => trivial) (statements_end _) (statements_end _)
            (List.cons.inj (List.cons.inj following).2).2
          cases last
          exact ⟨rfl, rfl⟩
      | _ => cases kinds

theorem statement_determined (statement : Statement) : Statement.code.Determines statement := by
  intro other before after _ _ _ same
  change Statement.lexemes _ ++ _ = Statement.lexemes _ ++ _ at same
  have kinds := Statement.kind_eq same
  cases statement with
  | decl declaration =>
      cases other with
      | decl otherDeclaration =>
          obtain ⟨rfl, behind⟩ := declaration_determined declaration otherDeclaration _ _ trivial
            (fun _ _ => id) (fun _ _ => id) same
          exact ⟨rfl, behind⟩
      | _ => cases kinds
  | assign target value =>
      cases other with
      | assign otherTarget otherValue =>
          simp only [Statement.lexemes, List.cons_append, List.append_assoc, List.nil_append,
            List.cons.injEq, Lexeme.word.injEq, true_and] at same
          obtain ⟨text, values⟩ := same
          obtain ⟨rfl, behind⟩ := value.closed_determined values
          rw [Name.eq_of_text text]
          exact ⟨rfl, behind⟩
      | _ => cases kinds
  | expr expr =>
      cases other with
      | expr otherExpr =>
          simp only [Statement.lexemes, List.append_assoc, List.cons_append,
            List.nil_append] at same
          obtain ⟨rfl, behind⟩ := expr.closed_determined same
          exact ⟨rfl, behind⟩
      | _ => cases kinds
  | returns value =>
      cases other with
      | returns otherValue =>
          simp only [Statement.lexemes, List.cons_append, List.append_assoc, List.nil_append,
            List.cons.injEq, true_and] at same
          obtain ⟨rfl, behind⟩ := value.closed_determined same
          exact ⟨rfl, behind⟩
      | _ => cases kinds

theorem statements_determined (statements : List Statement) :
    ∀ statement ∈ statements, Statement.code.Determines statement := by
  cases statements with
  | nil =>
      intro statement member
      cases member
  | cons first rest =>
      exact List.forall_mem_cons.mpr ⟨statement_determined first, statements_determined rest⟩

end

theorem Program.eq_of_lexemes
    {program other : Program}
    (same : program.lexemes = other.lexemes) :
    program = other := by
  have lists : program.declarations.flatMap Declaration.code.tokens ++ [] =
      other.declarations.flatMap Declaration.code.tokens ++ [] := by
    rw [List.append_nil, List.append_nil]
    exact same
  obtain ⟨declarations, -⟩ := Declaration.code.items_determined
    (fun declaration _ => declaration_determined declaration) (fun _ _ => trivial)
    (fun _ _ => trivial) (Code.ends_nil _) (Code.ends_nil _) lists
  exact congrArg Program.mk declarations

/-- At every width and from every column, a program whose names are identifiers prints as its
lexemes. The lexemes of two such programs are the same, and they print alike at whatever widths,
only if they are one program. -/
theorem Program.printed_lexemes (program : Program) (named : Named program.names) :
    (∀ width column : Int, ∃ text,
      (Action.pretty (.described program.layout) width column).Yields text ∧
      lex text.toList = some program.lexemes) ∧
    ∀ other : Program, Named other.names →
      (program.lexemes = other.lexemes → program = other) ∧
      ∀ width column otherWidth otherColumn : Int, ∃ text otherText,
        (Action.pretty (.described program.layout) width column).Yields text ∧
        (Action.pretty (.described other.layout) otherWidth otherColumn).Yields otherText ∧
        (text = otherText → program = other) := by
  have carries := program_carries program named
  refine ⟨Action.pretty_read carries, ?_⟩
  intro other otherNamed
  refine ⟨Program.eq_of_lexemes, ?_⟩
  intro width column otherWidth otherColumn
  obtain ⟨text, otherText, yields, otherYields, alike⟩ := Action.pretty_tells_apart carries
    (program_carries other otherNamed) width column otherWidth otherColumn
  refine ⟨text, otherText, yields, otherYields, ?_⟩
  intro same
  exact Program.eq_of_lexemes (alike same)

/-- A call of a function that is named like a keyword, with a literal that has everything that
must be escaped, and a line break. -/
def oddCall : Expr := .call { text := "return" } [.int (-7), .str "a\" \\\n;"]

/-- A struct and a function that are named like keywords. -/
def oddNames (last : Statement) : Program where
  declarations :=
    [ .struct { text := "int" } [⟨.pointer .char, { text := "struct" }⟩],
      .function { text := "return" } (.struct { text := "int" }) [⟨.int, { text := "enum" }⟩] [last]]

/-- To return what a call gives and to call for effect are told apart, although the function that
is called has the name of the keyword. -/
theorem odd_return_and_odd_call_differ :
    Named (oddNames (.returns oddCall)).names ∧ Named (oddNames (.expr oddCall)).names ∧
      (∃ text, (Action.pretty (.described (oddNames (.expr oddCall)).layout) 9 4).Yields text ∧
        lex text.toList = some
          [ .word "struct", .word "int", .mark '\x7b', .word "char", .mark '*', .word "struct",
            .mark ';', .mark '\x7d', .mark ';', .word "struct", .word "int", .word "return",
            .mark '(', .word "int", .word "enum", .mark ')', .mark '\x7b', .word "return",
            .mark '(', .number (-7), .mark ',', .quoted "a\" \\\n;", .mark ')', .mark ';',
            .mark '\x7d']) ∧
      (oddNames (.returns oddCall)).lexemes ≠ (oddNames (.expr oddCall)).lexemes ∧
      ∃ text other,
        (Action.pretty (.described (oddNames (.returns oddCall)).layout) 60 0).Yields text ∧
        (Action.pretty (.described (oddNames (.expr oddCall)).layout) 9 (-3)).Yields other ∧
        text ≠ other := by
  have named : Named (oddNames (.returns oddCall)).names := by decide
  have otherNamed : Named (oddNames (.expr oddCall)).names := by decide
  have different : oddNames (.returns oddCall) ≠ oddNames (.expr oddCall) := by
    rw [oddNames, oddNames]
    simp
  obtain ⟨-, tells⟩ := Program.printed_lexemes (oddNames (.returns oddCall)) named
  obtain ⟨reads, -⟩ := Program.printed_lexemes (oddNames (.expr oddCall)) otherNamed
  obtain ⟨lexemes, printed⟩ := tells (oddNames (.expr oddCall)) otherNamed
  obtain ⟨text, other, yields, otherYields, alike⟩ := printed 60 0 9 (-3)
  exact ⟨named, otherNamed, reads 9 4, fun same => different (lexemes same), text, other, yields,
    otherYields, fun same => different (alike same)⟩

end Typeset.CSource

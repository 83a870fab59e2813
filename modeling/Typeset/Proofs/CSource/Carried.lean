import Typeset.Proofs.CSource.Lexemes
import Typeset.Proofs.Layout.Reading

/-!
The layouts of C source carry its lexemes, if all names are identifiers. Parentheses close up
without a space and the star of a pointer stands on its type, but each of these marks ends the
word before it.
-/

set_option autoImplicit false

namespace Typeset.CSource

open Build
open Layout (Carries CarriesInline)

section Marks

variable {layout : Layout} {lexemes : List Lexeme}

theorem name_reads {name : String} (identifier : isIdentifier name = true) :
    (Layout.text name).Reads reading [.word name] :=
  Layout.text_reads (identifier_reads identifier)

theorem marked
    {mark : String}
    {c : Char}
    (reads : layout.Reads reading lexemes)
    (form : mark.toList = [c])
    (known : isMark c = true) :
    (Layout.concat layout (.text mark)).Reads reading (lexemes ++ [.mark c]) := by
  have single : reading.ReadsAs mark.toList [.mark c] := form ▸ (mark_closed known).reads_as
  exact reads.concat (Layout.text_reads single) (Layout.text_opens (form ▸ mark_opens known))

theorem terminated_carries (carries : layout.Carries reading lexemes) :
    (terminated layout).Carries reading (lexemes ++ [.mark ';']) :=
  ⟨⟨carries.clean, trivial⟩, marked carries.reads rfl rfl⟩

theorem braced_carries (carries : layout.Carries reading lexemes) :
    Steady (Carries reading ([.mark '{'] ++ (lexemes ++ [.mark '}'])))
      (Layout.bracket blockIndent "\x7b" (.node layout) "\x7d") :=
  Steady.mono (carries.bracket blockIndent (mark_closed rfl).reads_as (mark_closed rfl).reads_as)
    fun _ made => made.1

theorem parenthesized_carries
    (carries : layout.CarriesInline reading lexemes) :
    Steady (fun grouped =>
      grouped.CarriesInline reading ([.mark '('] ++ (lexemes ++ [.mark ')'])) ∧
        grouped.Opens reading)
      (Layout.parenthesized (.node layout)) :=
  carries.parenthesized (mark_opens rfl) (mark_closed rfl) (mark_opens rfl)
    (mark_closed rfl).reads_as

theorem listed_carries
    {items : List Item}
    {parts : List (List Lexeme)}
    (given : Layout.ItemsHold (CarriesInline reading) items parts) :
    Steady (CarriesInline reading (listed parts)) (Layout.separated "," items) :=
  Layout.separated_carries (mark_opens rfl) (mark_closed rfl).reads_as given

end Marks

theorem text_seamless (content : String) : (Layout.text content).Seamless := .of_is_flat rfl

theorem word_carries {name : String} (identifier : isIdentifier name = true) :
    (Layout.text name).CarriesInline reading [.word name] :=
  ⟨⟨trivial, name_reads identifier⟩, text_seamless name⟩

theorem space_join_carries
    {left right : Layout}
    {earlier later : List Lexeme}
    (first : left.CarriesInline reading earlier)
    (second : right.CarriesInline reading later) :
    (Layout.spaceJoin left right).CarriesInline reading (earlier ++ later) :=
  ⟨⟨⟨first.clean, trivial, second.clean⟩, first.reads.space_join second.reads⟩,
    first.seamless.concat ((text_seamless " ").concat second.seamless)⟩

theorem type_carries (type : CType) (named : Named type.names) :
    type.layout.CarriesInline reading type.lexemes := by
  induction type with
  | int => exact word_carries rfl
  | char => exact word_carries rfl
  | struct name => exact space_join_carries (word_carries rfl) (word_carries (named_cons.mp named).1)
  | enum name => exact space_join_carries (word_carries rfl) (word_carries (named_cons.mp named).1)
  | pointer target ih =>
      have carries := ih named
      exact ⟨⟨⟨carries.clean, trivial⟩, marked carries.reads rfl rfl⟩,
        carries.seamless.concat (text_seamless "*")⟩

theorem member_carries (member : Member) (named : Named member.names) :
    member.layout.CarriesInline reading member.lexemes := by
  obtain ⟨identifier, typeNamed⟩ := named_cons.mp named
  exact space_join_carries (type_carries member.type typeNamed) (word_carries identifier)

mutual

theorem expr_carries (expr : Expr) (named : Named expr.names) :
    Steady (CarriesInline reading expr.lexemes) expr.layout := by
  cases expr with
  | int value =>
      exact .pure ⟨⟨trivial, Layout.text_reads (number_reads value)⟩, text_seamless _⟩
  | str value =>
      exact .pure ⟨⟨trivial, Layout.text_reads (quoted_closed value).reads_as⟩, text_seamless _⟩
  | ident name => exact .pure (word_carries (named_cons.mp named).1)
  | call function arguments =>
      obtain ⟨identifier, argumentsNamed⟩ := named_cons.mp named
      rw [expr_names_all, named_flat_map] at argumentsNamed
      apply Steady.bind (listed_carries (expr_items_carry arguments argumentsNamed))
      intro list carries
      apply Steady.bind (parenthesized_carries carries)
      rintro inner ⟨innerCarries, opens⟩
      refine .pure ⟨⟨⟨trivial, innerCarries.clean⟩, ?_⟩,
        (text_seamless _).concat innerCarries.seamless⟩
      rw [Expr.lexemes, expr_lexemes_each]
      exact (name_reads identifier).concat innerCarries.reads opens

theorem expr_items_carry
    (exprs : List Expr)
    (named : ∀ expr ∈ exprs, Named expr.names) :
    Layout.ItemsHold (CarriesInline reading) (Expr.layoutItems exprs)
      (exprs.map Expr.lexemes) := by
  cases exprs with
  | nil => exact .nil
  | cons expr rest =>
      obtain ⟨exprNamed, restNamed⟩ := List.forall_mem_cons.mp named
      exact .cons (expr_carries expr exprNamed) (expr_items_carry rest restNamed)

end

theorem definition_carries
    {keyword : String}
    {name : Name}
    {body : Layout}
    {lexemes : List Lexeme}
    (known : isIdentifier keyword = true)
    (identifier : isIdentifier name.text = true)
    (carries : body.Carries reading lexemes) :
    Steady (Carries reading (definitionLexemes keyword name lexemes))
      (definition keyword name body) := by
  apply Steady.bind (braced_carries carries)
  intro block blockCarries
  have head := (name_reads known).space_join (name_reads identifier)
  have whole : (Layout.spaceJoin (.spaceJoin (.text keyword) (.text name.text)) block).Carries
      reading _ :=
    ⟨⟨⟨trivial, trivial, trivial⟩, trivial, blockCarries.clean⟩, head.space_join blockCarries.reads⟩
  apply Steady.bind whole.group
  rintro grouped ⟨groupedCarries, -⟩
  have closed := terminated_carries groupedCarries.toCarries
  simp only [List.append_assoc, List.cons_append, List.nil_append] at closed
  exact .pure closed

mutual

theorem declaration_carries (declaration : Declaration) (named : Named declaration.names) :
    Steady (Carries reading declaration.lexemes) declaration.layout := by
  cases declaration with
  | struct name members =>
      obtain ⟨identifier, membersNamed⟩ := named_cons.mp named
      rw [named_flat_map] at membersNamed
      have fields : Layout.ItemsHold (Carries reading)
          (members.map fun member => .node (terminated member.layout))
          (members.map Member.fieldLexemes) := by
        apply Layout.items_hold_map
        intro member inside
        have carries := member_carries member (membersNamed member inside)
        exact .pure (terminated_carries carries.toCarries)
      apply Steady.bind (Layout.stack_carries fields)
      intro body carries
      rw [← List.flatMap_def] at carries
      exact definition_carries rfl identifier carries
  | enum name variants =>
      obtain ⟨identifier, variantsNamed⟩ := named_cons.mp named
      have words : Layout.ItemsHold (CarriesInline reading) (variants.map .text)
          (variants.map fun variant => [.word variant]) := by
        apply Layout.items_hold_map
        intro variant inside
        exact .pure (word_carries (variantsNamed variant inside))
      apply Steady.bind (listed_carries words)
      intro body carries
      exact definition_carries rfl identifier carries.toCarries
  | var type name =>
      obtain ⟨identifier, typeNamed⟩ := named_cons.mp named
      have carries := space_join_carries (type_carries type typeNamed) (word_carries identifier)
      have closed := terminated_carries carries.toCarries
      rw [List.append_assoc] at closed
      exact .pure closed
  | function name returns params body =>
      obtain ⟨identifier, restNamed⟩ := named_cons.mp named
      obtain ⟨signatureNamed, bodyNamed⟩ := named_append.mp restNamed
      obtain ⟨returnsNamed, paramsNamed⟩ := named_append.mp signatureNamed
      rw [named_flat_map] at paramsNamed
      rw [statement_names_all, named_flat_map] at bodyNamed
      have signature := space_join_carries (type_carries returns returnsNamed)
        (word_carries identifier)
      have given : Layout.ItemsHold (CarriesInline reading)
          (params.map fun param => .node param.layout) (params.map Member.lexemes) := by
        apply Layout.items_hold_map
        intro param inside
        exact .pure (member_carries param (paramsNamed param inside))
      apply Steady.bind (listed_carries given)
      intro list carries
      apply Steady.bind (parenthesized_carries carries)
      rintro parameters ⟨inner, opens⟩
      apply Steady.bind (Layout.stack_carries (statement_items_carry body bodyNamed))
      intro statements statementsCarry
      apply Steady.bind (braced_carries statementsCarry)
      intro block blockCarries
      have behind := inner.reads.space_join blockCarries.reads
      -- Nothing stands between the name and the parenthesis, which ends the name.
      have whole := signature.reads.concat behind (opens.concat _)
      refine .pure ⟨⟨signature.clean, inner.clean, trivial, blockCarries.clean⟩, ?_⟩
      rw [Declaration.lexemes, statement_lexemes_all, List.flatMap_def]
      simpa only [List.append_assoc, List.cons_append, List.nil_append] using whole

theorem statement_carries (statement : Statement) (named : Named statement.names) :
    Steady (Carries reading statement.lexemes) statement.layout := by
  cases statement with
  | decl declaration => exact declaration_carries declaration named
  | assign target value =>
      obtain ⟨identifier, valueNamed⟩ := named_cons.mp named
      apply Steady.bind (expr_carries value valueNamed)
      intro layout carries
      have equals : (Layout.text "=").CarriesInline reading [.mark '='] :=
        ⟨⟨trivial, Layout.text_reads (mark_closed rfl).reads_as⟩, text_seamless "="⟩
      have whole := space_join_carries (space_join_carries (word_carries identifier) equals) carries
      exact .pure (terminated_carries whole.toCarries)
  | expr expr =>
      apply Steady.bind (expr_carries expr named)
      intro layout carries
      exact .pure (terminated_carries carries.toCarries)
  | returns value =>
      apply Steady.bind (expr_carries value named)
      intro layout carries
      have whole := space_join_carries (word_carries (rfl : isIdentifier "return" = true)) carries
      exact .pure (terminated_carries whole.toCarries)

theorem statement_items_carry
    (statements : List Statement)
    (named : ∀ statement ∈ statements, Named statement.names) :
    Layout.ItemsHold (Carries reading) (Statement.layoutItems statements)
      (statements.map Statement.lexemes) := by
  cases statements with
  | nil => exact .nil
  | cons statement rest =>
      obtain ⟨statementNamed, restNamed⟩ := List.forall_mem_cons.mp named
      exact .cons (statement_carries statement statementNamed)
        (statement_items_carry rest restNamed)

end

/-- The layout of a program carries the lexemes of the program. -/
theorem program_carries (program : Program) (named : Named program.names) :
    Steady (Carries reading program.lexemes) program.layout := by
  rw [Program.names, named_flat_map] at named
  have given : Layout.ItemsHold (Carries reading)
      (program.declarations.map fun declaration => .described declaration.layout)
      (program.declarations.map Declaration.lexemes) := by
    apply Layout.items_hold_map
    intro declaration inside
    exact declaration_carries declaration (named declaration inside)
  rw [Program.lexemes, List.flatMap_def]
  exact Layout.stack_carries given

end Typeset.CSource

import Typeset.Formatter
import Typeset.Proofs.Layout.Steady

/-!
The layouts of documents. No document of a bundled model puts a choice of its own into its
layout, so its layout has no strays and is the same with the check of choices on and off.
The induction is on the document, the layouts of the parts being those of the items.
-/

set_option autoImplicit false

namespace Typeset

open Build

namespace SExpr

mutual

theorem layout_steady (step : Int) (expr : SExpr) :
    Steady Layout.Clean (expr.layout step) := by
  cases expr with
  | atom value => exact .pure trivial
  | call operator arguments =>
      cases arguments with
      | nil => exact .pure trivial
      | cons first rest =>
          apply Steady.bind (Layout.stack_steady (layout_items_steady step (first :: rest)))
          intro stacked clean
          refine Steady.bind (Layout.group_steady ⟨trivial, trivial, clean⟩) ?_
          intro opened openedClean
          exact Layout.group_with_steady "" ⟨openedClean, trivial, trivial⟩

theorem layout_items_steady (step : Int) (arguments : List SExpr) :
    ∀ item ∈ layoutItems step arguments, item.Steady := by
  cases arguments with
  | nil =>
      intro item member
      cases member
  | cons first rest =>
      exact List.forall_mem_cons.mpr ⟨layout_steady step first, layout_items_steady step rest⟩

end

end SExpr

namespace Tree

mutual

theorem layout_steady (tree : Tree) : Steady Layout.Clean tree.layout := by
  cases tree with
  | node label children =>
      cases children with
      | nil => exact .pure trivial
      | cons first rest =>
          apply Steady.bind (Layout.spread_steady (layout_items_steady (first :: rest)))
          intro joined clean
          apply Steady.bind (Layout.bracket_steady childIndent "[" "]" (.node joined) clean)
          intro block blockClean
          exact .pure ⟨trivial, trivial, blockClean⟩

theorem layout_items_steady (children : List Tree) :
    ∀ item ∈ layoutItems children, item.Steady := by
  cases children with
  | nil =>
      intro item member
      cases member
  | cons first rest =>
      exact List.forall_mem_cons.mpr ⟨layout_steady first, layout_items_steady rest⟩

end

end Tree

namespace CSource

theorem CType.layout_clean (type : CType) : type.layout.Clean := by
  induction type with
  | int => trivial
  | char => trivial
  | struct name => exact ⟨trivial, trivial, trivial⟩
  | enum name => exact ⟨trivial, trivial, trivial⟩
  | pointer target ih => exact ⟨ih, trivial⟩

mutual

theorem Expr.layout_steady (expr : Expr) : Steady Layout.Clean expr.layout := by
  cases expr with
  | int value => exact .pure trivial
  | str value => exact .pure trivial
  | ident name => exact .pure trivial
  | call function arguments =>
      apply Steady.bind (Layout.separated_steady "," (Expr.layout_items_steady arguments))
      intro list clean
      apply Steady.bind (Layout.parenthesized_steady (.node list) clean)
      intro enclosed enclosedClean
      exact .pure ⟨trivial, enclosedClean⟩

theorem Expr.layout_items_steady (arguments : List Expr) :
    ∀ item ∈ Expr.layoutItems arguments, item.Steady := by
  cases arguments with
  | nil =>
      intro item member
      cases member
  | cons first rest =>
      exact List.forall_mem_cons.mpr ⟨first.layout_steady, Expr.layout_items_steady rest⟩

end

theorem Member.layout_clean (member : Member) : member.layout.Clean :=
  ⟨member.type.layout_clean, trivial, trivial⟩

theorem definition_steady (keyword : String) (name : Name) (body : Layout) (clean : body.Clean) :
    Steady Layout.Clean (definition keyword name body) := by
  apply Steady.bind (Layout.bracket_steady blockIndent "\x7b" "\x7d" (.node body) clean)
  intro block blockClean
  refine Steady.bind (Layout.group_steady ⟨⟨trivial, trivial, trivial⟩, trivial, blockClean⟩) ?_
  intro grouped groupedClean
  exact .pure ⟨groupedClean, trivial⟩

mutual

theorem Declaration.layout_steady (declaration : Declaration) :
    Steady Layout.Clean declaration.layout := by
  cases declaration with
  | struct name members =>
      have items : ∀ item ∈ members.map fun member => Item.node (terminated member.layout),
          item.Steady := by
        intro item among
        obtain ⟨member, _, rfl⟩ := List.mem_map.mp among
        exact ⟨member.layout_clean, trivial⟩
      apply Steady.bind (Layout.stack_steady items)
      intro body clean
      exact definition_steady "struct" name body clean
  | enum name variants =>
      have items : ∀ item ∈ variants.map Item.text, item.Steady := by
        intro item among
        obtain ⟨variant, _, rfl⟩ := List.mem_map.mp among
        trivial
      apply Steady.bind (Layout.separated_steady "," items)
      intro body clean
      exact definition_steady "enum" name body clean
  | var type name => exact .pure ⟨⟨type.layout_clean, trivial, trivial⟩, trivial⟩
  | function name returns params body =>
      have items : ∀ item ∈ params.map fun param => Item.node param.layout, item.Steady := by
        intro item among
        obtain ⟨param, _, rfl⟩ := List.mem_map.mp among
        exact param.layout_clean
      apply Steady.bind (Layout.separated_steady "," items)
      intro list listClean
      apply Steady.bind (Layout.parenthesized_steady (.node list) listClean)
      intro parameters parametersClean
      apply Steady.bind (Layout.stack_steady (Statement.layout_items_steady body))
      intro statements statementsClean
      apply Steady.bind
        (Layout.bracket_steady blockIndent "\x7b" "\x7d" (.node statements) statementsClean)
      intro block blockClean
      exact .pure ⟨⟨returns.layout_clean, trivial, trivial⟩, parametersClean, trivial, blockClean⟩

theorem Statement.layout_steady (statement : Statement) :
    Steady Layout.Clean statement.layout := by
  cases statement with
  | decl declaration => exact declaration.layout_steady
  | assign target value =>
      apply Steady.bind value.layout_steady
      intro written clean
      exact .pure ⟨⟨⟨trivial, trivial, trivial⟩, trivial, clean⟩, trivial⟩
  | expr expr =>
      apply Steady.bind expr.layout_steady
      intro written clean
      exact .pure ⟨clean, trivial⟩
  | returns value =>
      apply Steady.bind value.layout_steady
      intro written clean
      exact .pure ⟨⟨trivial, trivial, clean⟩, trivial⟩

theorem Statement.layout_items_steady (statements : List Statement) :
    ∀ item ∈ Statement.layoutItems statements, item.Steady := by
  cases statements with
  | nil =>
      intro item member
      cases member
  | cons first rest =>
      exact List.forall_mem_cons.mpr ⟨first.layout_steady, Statement.layout_items_steady rest⟩

end

theorem Program.layout_steady (program : Program) : Steady Layout.Clean program.layout := by
  apply Layout.stack_steady
  intro item among
  obtain ⟨declaration, _, rfl⟩ := List.mem_map.mp among
  exact declaration.layout_steady

end CSource

end Typeset

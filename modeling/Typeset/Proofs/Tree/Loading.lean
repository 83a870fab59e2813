import Typeset.Proofs.Schema.Reloads
import Typeset.Tree.Schema

/-!
Loading trees. Every leaf of a document may be written as a bare text or as an object, with or
without a list of children, and whichever is chosen, the same tree is read (`read_of_spells`).
From its own data a tree comes back as well (`reloads`).
-/

set_option autoImplicit false

namespace Typeset.Tree

mutual

/-- A value spells a tree. A leaf is its label, or an object as any node is, in which the
children may be left out. An object may have other fields, too. -/
inductive Spells : Json → Tree → Prop where
  | bare (label : Name) : Spells (.str label.text) (leaf label)
  | leaf {fields : List (String × Json)} {label : Name} :
      Json.field? fields "label" = some (.str label.text) →
      Json.field? fields "children" = none →
      Spells (.obj fields) (leaf label)
  | node {fields : List (String × Json)} {label : Name} {items : List Json}
      {children : List Tree} :
      Json.field? fields "label" = some (.str label.text) →
      Json.field? fields "children" = some (.arr items) → SpellsAll items children →
      Spells (.obj fields) (.node label children)

inductive SpellsAll : List Json → List Tree → Prop where
  | nil : SpellsAll [] []
  | cons {item : Json} {child : Tree} {items : List Json} {children : List Tree} :
      Spells item child → SpellsAll items children → SpellsAll (item :: items) (child :: children)

end

/-- What the data of a tree must be: every field is there, and no label is empty. -/
inductive Declared : Json → Prop where
  | node {label : String} {children : List Json} :
      label ≠ "" → (∀ child ∈ children, Declared child) →
      Declared (.obj [("label", .str label), ("children", .arr children)])

theorem to_json_list_eq (trees : List Tree) : toJsonList trees = trees.map toJson := by
  induction trees with
  | nil => rfl
  | cons tree rest ih => rw [toJsonList, ih, List.map_cons]

theorem read_node
    {fields : List (String × Json)}
    {label : Name}
    {items : List Json}
    {children : List Tree}
    (named : Json.field? fields "label" = some (.str label.text))
    (below : Json.field? fields "children" = some (.arr items))
    (accepted : List.Forall₂ (fun item child => read item = .valid child) items children) :
    read (.obj fields) = .valid (.node label children) := by
  rw [read, Check.name_field_valid named, Check.list_field_valid below accepted]
  rfl

theorem read_leaf
    {fields : List (String × Json)}
    {label : Name}
    (named : Json.field? fields "label" = some (.str label.text))
    (below : Json.field? fields "children" = none) :
    read (.obj fields) = .valid (leaf label) := by
  rw [read, Check.name_field_valid named, Check.list_field_absent below, leaf]
  rfl

mutual

theorem read_of_spells :
    (tree : Tree) → ∀ value, Spells value tree → read value = .valid tree
  | .node label [], _, .bare _ => by
      rw [read, Check.name, Name.ofString_text]
      rfl
  | .node _ [], _, .leaf named below => read_leaf named below
  | .node _ children, _, .node named below spelled =>
      read_node named below (children_of_spells children _ spelled)

theorem children_of_spells :
    (children : List Tree) → ∀ items, SpellsAll items children →
    List.Forall₂ (fun item child => read item = .valid child) items children
  | [], _, .nil => .nil
  | child :: rest, _, .cons spelled others =>
      .cons (read_of_spells child _ spelled) (children_of_spells rest _ others)

end

mutual

theorem reloads : (tree : Tree) → Json.Reloads Declared read tree.toJson tree
  | .node label children => by
      have each := children_reload children
      rw [toJson, to_json_list_eq]
      refine ⟨.node label.nonempty (Json.Reloads.all_declared each), ⟨?_, ?_⟩, ?_⟩
      · simp
      · exact ⟨trivial, Json.Reloads.all_tidy each, trivial⟩
      · exact read_node rfl rfl (Json.Reloads.all_read_back each)

theorem children_reload :
    (children : List Tree) → ∀ child ∈ children,
    Json.Reloads Declared read child.toJson child
  | first :: rest, child, member =>
      (List.mem_cons.mp member).elim (fun same => same ▸ reloads first)
        (children_reload rest child)

end

end Typeset.Tree

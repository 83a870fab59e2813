import Typeset.Proofs.Layout.Reading
import Typeset.Proofs.Text.Code
import Typeset.Proofs.Text.Words
import Typeset.Tree.Layout

/-!
The words of a printed tree. Breaks and spaces differ from width to width, but the words between
them do not: the label of the tree, and the words of its children in brackets. Where no label
looks like a bracket, a tree can be told from its words, and so from its text at any width:
`Tree.printed_words`.
-/

set_option autoImplicit false

namespace Typeset

namespace Tree

open Build

mutual

/-- The label, and the words of the children between brackets if there are any. -/
def words : Tree → List String
  | .node label [] => [label.text]
  | .node label (first :: rest) => label.text :: "[" :: wordsAll (first :: rest) ++ ["]"]

def wordsAll : List Tree → List String
  | [] => []
  | child :: rest => words child ++ wordsAll rest

end

mutual

/-- The labels at every depth. -/
def labels : Tree → List Name
  | .node label children => label :: labelsAll children

def labelsAll : List Tree → List Name
  | [] => []
  | child :: rest => labels child ++ labelsAll rest

end

theorem words_all_eq (children : List Tree) : wordsAll children = children.flatMap words :=
  Text.all_eq_flat_map rfl (fun _ _ => rfl) children

theorem words_of_leaf (label : Name) : words (.node label []) = [label.text] := rfl

theorem words_of_node (label : Name) (first : Tree) (rest : List Tree) :
    words (.node label (first :: rest)) =
      label.text :: "[" :: ((first :: rest).flatMap words ++ ["]"]) := by
  rw [words, words_all_eq]
  rfl

theorem labels_all_eq (children : List Tree) : labelsAll children = children.flatMap labels :=
  Text.all_eq_flat_map rfl (fun _ _ => rfl) children

/-- What holds of all labels of a tree holds of its own label and of those of its children. -/
theorem forall_labels
    {holds : Name → Prop}
    {label : Name}
    {children : List Tree} :
    (∀ name ∈ (Tree.node label children).labels, holds name) ↔
      holds label ∧ ∀ child ∈ children, ∀ name ∈ child.labels, holds name := by
  rw [labels, List.forall_mem_cons, labels_all_eq, List.forall_mem_flatMap]

/-- The name is one word. -/
def Whole (name : Name) : Prop := ∀ c ∈ name.text.toList, Text.isGap c = false

instance (name : Name) : Decidable (Whole name) :=
  List.decidableBAll _ name.text.toList

/-- Brackets are words like all others. -/
def reading : Text.Reading String := Text.words fun _ => false

theorem name_reads {name : Name} (whole : Whole name) :
    reading.ReadsAs name.text.toList [name.text] :=
  Text.word_reads name.nonempty whole fun _ _ => rfl

theorem bracket_reads
    {bracket : String}
    {c : Char}
    (form : bracket.toList = [c])
    (visible : Text.isGap c = false) :
    reading.ReadsAs bracket.toList [bracket] := by
  have some : bracket ≠ "" := by
    rintro rfl
    cases form
  have whole : ∀ other ∈ bracket.toList, Text.isGap other = false := by
    rw [form]
    exact List.forall_mem_singleton.mpr visible
  exact Text.word_reads some whole fun _ _ => rfl

/-- There is no gap before the first word, and none behind the last one. -/
def Framed (text : List Char) : Prop :=
  (∀ c, text.head? = some c → Text.isGap c = false) ∧
    ∀ c, text.getLast? = some c → Text.isGap c = false

theorem name_framed {name : Name} (whole : Whole name) : Framed name.text.toList := by
  constructor
  · intro c first
    exact whole c (List.mem_of_mem_head? first)
  · intro c last
    exact whole c (List.mem_of_mem_getLast? last)

/-- A label in front, and a bracket at the end. -/
theorem Framed.between
    {before text : List Char}
    {last : Char}
    (framed : Framed before)
    (some : before ≠ [])
    (visible : Text.isGap last = false)
    (ends : [last] <:+ text) :
    Framed (before ++ text) := by
  obtain ⟨others, rfl⟩ := ends
  constructor
  · intro c first
    rw [List.head?_append_of_ne_nil _ some] at first
    exact framed.1 c first
  · intro c final
    rw [← List.append_assoc, List.getLast?_concat] at final
    cases final
    exact visible

/-- The layout carries the words, and no text of it has a gap at an end. -/
structure CarriesFramed (words : List String) (layout : Layout) : Prop
    extends layout.Carries reading words where
  framed : ∀ text, layout.Spells text → Framed text

mutual

/-- The layout of a tree carries the words of the tree. -/
theorem layout_carries (tree : Tree) (whole : ∀ name ∈ tree.labels, Whole name) :
    Steady (CarriesFramed tree.words) tree.layout := by
  cases tree with
  | node label children =>
      obtain ⟨labelWhole, childrenWhole⟩ := forall_labels.mp whole
      have named := Layout.text_reads (name_reads labelWhole)
      cases children with
      | nil =>
          refine .pure ⟨⟨trivial, named⟩, ?_⟩
          intro text spells
          cases spells
          exact name_framed labelWhole
      | cons first rest =>
          apply Steady.bind (Layout.spread_carries (layout_items_carry _ childrenWhole))
          intro body carries
          apply Steady.bind (carries.bracket childIndent (bracket_reads rfl rfl)
            (bracket_reads rfl rfl))
          rintro block ⟨blockCarries, ends⟩
          have joined := named.space_join blockCarries.reads
          rw [words_of_node, List.flatMap_def]
          refine .pure ⟨⟨⟨trivial, trivial, blockCarries.clean⟩, joined⟩, ?_⟩
          intro text spells
          cases spells with
          | concat before after =>
              cases before
              cases after with
              | concat gap inside =>
                  have filled : label.text.toList ≠ [] := by
                    intro empty
                    exact label.nonempty (String.toList_inj.mp empty)
                  exact (name_framed labelWhole).between filled rfl
                    ((ends _ inside).trans (List.suffix_append _ _))

theorem layout_items_carry
    (children : List Tree)
    (whole : ∀ child ∈ children, ∀ name ∈ child.labels, Whole name) :
    Layout.ItemsHold (Layout.Carries reading) (layoutItems children) (children.map words) := by
  cases children with
  | nil => exact .nil
  | cons first rest =>
      obtain ⟨firstWhole, restWhole⟩ := List.forall_mem_cons.mp whole
      have carries := (layout_carries first firstWhole).mono fun _ => CarriesFramed.toCarries
      exact .cons carries (layout_items_carry rest restWhole)

end

/-- The name is not a bracket. -/
def Plain (name : Name) : Prop := name.text ≠ "[" ∧ name.text ≠ "]"

instance (name : Name) : Decidable (Plain name) :=
  inferInstanceAs (Decidable (name.text ≠ "[" ∧ name.text ≠ "]"))

theorem words_begin (tree : Tree) :
    ∃ rest, tree.words = tree.label.text :: rest := by
  obtain ⟨label, children⟩ := tree
  cases children with
  | nil => exact ⟨[], rfl⟩
  | cons first rest => exact ⟨"[" :: wordsAll (first :: rest) ++ ["]"], rfl⟩

theorem label_mem (tree : Tree) : tree.label ∈ tree.labels := by
  obtain ⟨label, children⟩ := tree
  exact List.mem_cons_self

/-- A tree goes on behind its label with a bracket, so none may follow a leaf. -/
def code : Text.Code Tree String where
  tokens := words
  valid tree := ∀ name ∈ tree.labels, Plain name
  starts word := word ≠ "[" ∧ word ≠ "]"
  more word := word = "["
  begins := by
    intro tree plain
    obtain ⟨rest, form⟩ := tree.words_begin
    exact ⟨tree.label.text, rest, form, plain tree.label tree.label_mem⟩
  fresh _ starts := starts.1

theorem closing_ends (rest : List String) : code.Ends ("]" :: rest) := by
  have noTree : ¬code.starts "]" := fun starts => starts.2 rfl
  have different : "]" ≠ "[" := by decide
  exact Text.Code.ends_cons noTree different rest

/-- Only the words of a node go on with a bracket behind the label. -/
theorem not_opened
    {word : String}
    {before after : List String}
    (closed : Text.Free code.more before) :
    [word] ++ before ≠ word :: "[" :: after := by
  intro same
  obtain ⟨-, rfl⟩ := List.cons.inj same
  exact closed "[" rfl rfl

mutual

theorem determined (tree : Tree) (plain : ∀ name ∈ tree.labels, Plain name) :
    code.Determines tree := by
  intro other before after otherPlain closed otherClosed same
  obtain ⟨label, children⟩ := tree
  obtain ⟨otherLabel, others⟩ := other
  obtain ⟨-, childrenPlain⟩ := forall_labels.mp plain
  obtain ⟨-, othersPlain⟩ := forall_labels.mp otherPlain
  change words _ ++ before = words _ ++ after at same
  have named : label = otherLabel := by
    obtain ⟨_, form⟩ := words_begin (.node label children)
    obtain ⟨_, otherForm⟩ := words_begin (.node otherLabel others)
    rw [form, otherForm] at same
    exact Name.eq_of_text (List.cons.inj same).1
  subst named
  cases children with
  | nil =>
      cases others with
      | nil => exact ⟨rfl, (List.cons.inj same).2⟩
      | cons second later =>
          rw [words_of_leaf, words_of_node] at same
          exact absurd same (not_opened closed)
  | cons first rest =>
      cases others with
      | nil =>
          rw [words_of_leaf, words_of_node] at same
          exact absurd same.symm (not_opened otherClosed)
      | cons second later =>
          simp only [words_of_node, List.cons_append, List.append_assoc, List.cons.injEq,
            true_and, List.nil_append] at same
          obtain ⟨children, behind⟩ := code.items_determined
            (children_determined (first :: rest) childrenPlain) childrenPlain othersPlain
            (closing_ends before) (closing_ends after) same
          rw [children]
          exact ⟨rfl, (List.cons.inj behind).2⟩

theorem children_determined
    (children : List Tree)
    (plain : ∀ child ∈ children, ∀ name ∈ child.labels, Plain name) :
    ∀ child ∈ children, code.Determines child := by
  cases children with
  | nil =>
      intro child member
      cases member
  | cons first rest =>
      obtain ⟨firstPlain, restPlain⟩ := List.forall_mem_cons.mp plain
      exact List.forall_mem_cons.mpr
        ⟨determined first firstPlain, children_determined rest restPlain⟩

end

/-- At every width and from every column, a tree whose labels are words prints as its words with
gaps between them. Two such trees without brackets for labels that print alike, at whatever
widths, are one tree. -/
theorem printed_words (tree : Tree) (whole : ∀ name ∈ tree.labels, Whole name) :
    (∀ width column : Int, ∃ text,
      (Action.pretty (.described tree.layout) width column).Yields text ∧
      Text.split text.toList = tree.words ∧ Framed text.toList) ∧
    ∀ other : Tree, (∀ name ∈ other.labels, Whole name) →
      (∀ name ∈ tree.labels, Plain name) → (∀ name ∈ other.labels, Plain name) →
      ∀ width column otherWidth otherColumn : Int, ∃ text otherText,
        (Action.pretty (.described tree.layout) width column).Yields text ∧
        (Action.pretty (.described other.layout) otherWidth otherColumn).Yields otherText ∧
        (text = otherText → tree = other) := by
  have carries (tree : Tree) (whole : ∀ name ∈ tree.labels, Whole name) :=
    (layout_carries tree whole).mono fun _ => CarriesFramed.toCarries
  refine ⟨?_, ?_⟩
  · intro width column
    obtain ⟨text, layout, yields, carried, spells⟩ := Action.pretty_spelled
      (layout_carries tree whole) (fun _ made => made.clean) width column
    have found : some (Text.split (Text.setApart (fun _ => false) text.toList)) =
        some tree.words := (carried.reads _ spells).read_eq
    rw [Text.set_apart_nothing] at found
    exact ⟨text, yields, Option.some.inj found, carried.framed _ spells⟩
  · intro other otherWhole plain otherPlain width column otherWidth otherColumn
    obtain ⟨text, otherText, yields, otherYields, alike⟩ := Action.pretty_tells_apart
      (carries tree whole) (carries other otherWhole) width column otherWidth otherColumn
    refine ⟨text, otherText, yields, otherYields, ?_⟩
    intro same
    exact (determined tree plain).eq otherPlain (alike same)

/-- A group in a group, with a sibling behind it. -/
def withUncle : Tree :=
  .node { text := "a" } [.node { text := "b[" } [leaf { text := "c" }], leaf { text := "d" }]

/-- The sibling has moved into the inner group. -/
def withSibling : Tree :=
  .node { text := "a" } [.node { text := "b[" } [leaf { text := "c" }, leaf { text := "d" }]]

/-- The labels come in the same order, and the brackets tell the trees apart at any widths. -/
theorem uncle_and_sibling_differ :
    (∀ name ∈ withUncle.labels, Whole name ∧ Plain name) ∧
      (∀ name ∈ withSibling.labels, Whole name ∧ Plain name) ∧
      (∃ text, (Action.pretty (.described withUncle.layout) 7 2).Yields text ∧
        Text.split text.toList = ["a", "[", "b[", "[", "c", "]", "d", "]"] ∧
        Framed text.toList) ∧
      ∃ text other, (Action.pretty (.described withUncle.layout) 7 2).Yields text ∧
        (Action.pretty (.described withSibling.layout) 40 (-1)).Yields other ∧ text ≠ other := by
  have uncle : ∀ name ∈ withUncle.labels, Whole name ∧ Plain name := by decide
  have sibling : ∀ name ∈ withSibling.labels, Whole name ∧ Plain name := by decide
  obtain ⟨reads, tells⟩ := printed_words withUncle fun name member => (uncle name member).1
  obtain ⟨text, other, yields, otherYields, alike⟩ := tells withSibling
    (fun name member => (sibling name member).1) (fun name member => (uncle name member).2)
    (fun name member => (sibling name member).2) 7 2 40 (-1)
  have different : withUncle.words ≠ withSibling.words := by decide
  refine ⟨uncle, sibling, reads 7 2, text, other, yields, otherYields, ?_⟩
  intro same
  exact different (congrArg words (alike same))

end Tree

end Typeset

import Typeset.Proofs.Layout.Filling
import Typeset.Proofs.Layout.Grouped

/-!
Single-line texts of what the combinators make. A fold writes the text of its join between the
texts of its items, however many they are, and a filled text has a space between them. Breaks that
stand in a group are written as the separator of the group, whatever the separator around it is:
`texts_are_joined`.
-/

set_option autoImplicit false

namespace Typeset

open Build

/-- The layout has no strays, and this is its single-line text. -/
structure Layout.FlatAs (separator text : String) (layout : Layout) : Prop where
  clean : layout.Clean
  written : Layout.flatText separator layout = .ok text

/-- The construction gives a layout with this single-line text, and it is the same layout with the
check of choices on and off. -/
abbrev Build.Flattens (build : Build Layout) (separator text : String) : Prop :=
  Steady (Layout.FlatAs separator text) build

namespace Layout

variable {separator : String}

/-- A construction has one single-line text at most. -/
theorem flattens_unique
    {build : Build Layout}
    {text other : String}
    (flattens : build.Flattens separator text)
    (otherFlattens : build.Flattens separator other) :
    text = other := by
  obtain ⟨layout, layoutFlat, given⟩ := flattens
  obtain ⟨otherLayout, otherFlat, otherGiven⟩ := otherFlattens
  obtain rfl := Except.ok.inj ((given true).symm.trans (otherGiven true))
  exact Except.ok.inj (layoutFlat.written.symm.trans otherFlat.written)

/-- The single-line texts of layouts, one by one. -/
abbrev AllFlatAs (separator : String) : List Layout → List String → Prop :=
  List.Forall₂ fun layout text => FlatAs separator text layout

theorem AllFlatAs.all_clean
    {layouts : List Layout}
    {texts : List String}
    (flat : AllFlatAs separator layouts texts) :
    ∀ layout ∈ layouts, layout.Clean := by
  have both := flat.imp fun layout text layoutFlat => And.intro layoutFlat.clean layoutFlat
  exact ((List.forall₂_and_left layouts texts).mp both).1

/-- The single-line texts of items, one by one. -/
abbrev ItemsFlatten (separator : String) : List Item → List String → Prop :=
  List.Forall₂ fun item text => item.toLayout.Flattens separator text

theorem items_flatten_unique
    {items : List Item}
    {texts others : List String}
    (flatten : ItemsFlatten separator items texts)
    (othersFlatten : ItemsFlatten separator items others) :
    texts = others := by
  have unique : Relator.RightUnique fun (item : Item) text =>
      item.toLayout.Flattens separator text := fun _ _ _ => flattens_unique
  exact List.right_unique_forall₂' unique flatten othersFlatten

theorem item_flattens (separator : String) (item : Item) (steady : item.Steady) :
    ∃ text, item.toLayout.Flattens separator text := by
  obtain ⟨layout, clean, given⟩ := to_layout_steady item steady
  obtain ⟨text, written⟩ := flat_text_of_clean separator layout clean
  exact ⟨text, layout, ⟨clean, written⟩, given⟩

theorem items_flatten
    (separator : String)
    (items : List Item)
    (steady : ∀ item ∈ items, item.Steady) :
    ∃ texts, ItemsFlatten separator items texts := by
  induction items with
  | nil => exact ⟨[], .nil⟩
  | cons first rest ih =>
      obtain ⟨firstSteady, restSteady⟩ := List.forall_mem_cons.mp steady
      obtain ⟨text, flattens⟩ := item_flattens separator first firstSteady
      obtain ⟨texts, others⟩ := ih restSteady
      exact ⟨text :: texts, .cons flattens others⟩

namespace FlatAs

variable {left middle right layout flat : Layout} {text leftText middleText rightText : String}

theorem literal (content : String) : FlatAs separator content (.text content) :=
  ⟨trivial, flat_text_text content⟩

theorem lineBreak : FlatAs separator separator .lineBreak := ⟨trivial, flat_text_line_break⟩

theorem concat
    (leftFlat : FlatAs separator leftText left)
    (rightFlat : FlatAs separator rightText right) :
    FlatAs separator (leftText ++ rightText) (.concat left right) := by
  refine ⟨⟨leftFlat.clean, rightFlat.clean⟩, ?_⟩
  rw [flat_text_concat, leftFlat.written, rightFlat.written]
  rfl

theorem between
    (leftFlat : FlatAs separator leftText left)
    (middleFlat : FlatAs separator middleText middle)
    (rightFlat : FlatAs separator rightText right) :
    FlatAs separator (leftText ++ middleText ++ rightText) (.concat left (.concat middle right)) := by
  rw [String.append_assoc]
  exact leftFlat.concat (middleFlat.concat rightFlat)

theorem flattened
    (layoutFlat : FlatAs separator text layout)
    (form : flatForm separator layout = .ok flat)
    (other : String) :
    FlatAs other text flat := by
  obtain ⟨found, foundForm, foundClean, sameText⟩ :=
    flat_form_of_clean separator layout layoutFlat.clean
  rw [foundForm] at form
  cases form
  exact ⟨foundClean, (sameText other).trans layoutFlat.written⟩

end FlatAs

/-- A join that writes `between` between the texts of two layouts. -/
def WritesBetween
    (separator between : String)
    (join : Layout → Layout → Build Layout) : Prop :=
  ∀ left right leftText rightText, FlatAs separator leftText left →
    FlatAs separator rightText right →
      (join left right).Flattens separator (leftText ++ between ++ rightText)

/-- A fold writes between all its items what its join writes between two layouts. -/
theorem fold_flattens
    {between : String}
    {join : Layout → Layout → Build Layout}
    {items : List Item}
    {texts : List String}
    (writes : WritesBetween separator between join)
    (flatten : ItemsFlatten separator items texts) :
    (fold join items).Flattens separator (between.intercalate texts) := by
  let holds (chars : List Char) (layout : Layout) : Prop :=
    FlatAs separator (String.ofList chars) layout
  have nothing : holds [] .empty := ⟨trivial, flat_text_empty⟩
  have joins (before after : List Char) (left right : Layout) (leftHolds : holds before left)
      (rightHolds : holds after right) :
      Steady (holds (before ++ between.toList ++ after)) (join left right) := by
    have written := writes left right _ _ leftHolds rightHolds
    rw [← String.ofList_toList (s := between), ← String.ofList_append,
      ← String.ofList_append] at written
    exact written
  have parts : ItemsHold holds items (texts.map String.toList) := by
    rw [ItemsHold, List.forall₂_map_right_iff]
    refine flatten.imp ?_
    intro item text flattens
    simpa only [holds, String.ofList_toList] using flattens
  have gathered := fold_gathers_all nothing joins parts
  rw [← String.toList_intercalate] at gathered
  simpa only [holds, String.ofList_toList] using gathered

theorem space_join_writes (separator : String) :
    WritesBetween separator " " fun left right => return spaceJoin left right := by
  intro left right leftText rightText leftFlat rightFlat
  exact .pure (leftFlat.between (.literal " ") rightFlat)

theorem break_join_writes (separator : String) :
    WritesBetween separator separator fun left right => return breakJoin left right := by
  intro left right leftText rightText leftFlat rightFlat
  exact .pure (leftFlat.between .lineBreak rightFlat)

theorem separated_join_writes (separator mark : String) :
    WritesBetween separator (mark ++ " ")
      fun left right => return spaceJoin (.concat left (.text mark)) right := by
  intro left right leftText rightText leftFlat rightFlat
  have whole := (leftFlat.concat (.literal mark)).between (.literal " ") rightFlat
  rw [@String.append_assoc leftText] at whole
  exact .pure whole

/-- The space comes first in the choice, so it is written whatever the separator is. -/
theorem soft_join_writes (separator : String) : WritesBetween separator " " softJoin := by
  intro left right leftText rightText leftFlat rightFlat
  have softFlat : FlatAs separator " " (.choice space .lineBreak) :=
    ⟨⟨trivial, trivial⟩, by simp [space]⟩
  exact ⟨_, leftFlat.between softFlat rightFlat, soft_join_gives left right⟩

/-- A group is written as its single-line form, which has no breaks left. -/
theorem group_with_flattens
    {between text : String}
    {layout : Layout}
    (layoutFlat : FlatAs between text layout)
    (separator : String) :
    (groupWith between layout).Flattens separator text := by
  obtain ⟨flat, form, _⟩ := flat_form_of_clean between layout layoutFlat.clean
  obtain ⟨flatClean, given⟩ := group_with_gives layoutFlat.clean form
  have written := (layoutFlat.flattened form separator).written
  exact ⟨.choice flat layout, ⟨⟨flatClean, layoutFlat.clean⟩,
    (flat_text_choice flat layout).trans written⟩, given⟩

theorem bracket_flattens
    (amount : Int)
    (left right : String)
    {body : Item}
    {text : String}
    (flattens : body.toLayout.Flattens " " text)
    (separator : String) :
    (bracket amount left body right).Flattens separator (left ++ " " ++ text ++ " " ++ right) := by
  refine Steady.bind flattens ?_
  intro inner innerFlat
  have whole : FlatAs " " (left ++ " " ++ text ++ " " ++ right)
      (brokenBracket amount left inner right) :=
    ⟨broken_bracket_clean amount left right innerFlat.clean,
      flat_text_broken_bracket amount left right innerFlat.written⟩
  exact group_with_flattens whole separator

theorem parenthesized_flattens
    {body : Item}
    {text : String}
    (flattens : body.toLayout.Flattens "" text)
    (separator : String) :
    (parenthesized body).Flattens separator ("(" ++ text ++ ")") := by
  refine Steady.bind flattens ?_
  intro inner innerFlat
  have whole : FlatAs "" ("(" ++ text ++ ")") (brokenParentheses inner) :=
    ⟨broken_parentheses_clean innerFlat.clean, flat_text_broken_parentheses innerFlat.written⟩
  exact group_with_flattens whole separator

/-- The preferred branch of every choice has a space between the first two items, and the items
behind them are written in the same way. -/
theorem filled_text
    {layouts : List Layout}
    {texts : List String}
    {whole : Layout}
    (flatten : AllFlatAs " " layouts texts)
    (given : filled layouts = .ok whole) :
    flatText " " whole = .ok (" ".intercalate texts) := by
  fun_induction filled layouts generalizing texts whole with
  | case1 =>
      cases given
      cases flatten
      rw [flat_text_empty, String.intercalate_nil]
  | case2 last =>
      cases given
      obtain ⟨text, others, lastFlat, none, rfl⟩ := List.forall₂_cons_left_iff.mp flatten
      cases none
      rw [String.intercalate_singleton]
      exact lastFlat.written
  | case3 item next rest packedText _ =>
      obtain ⟨itemText, _, itemFlat, others, rfl⟩ := List.forall₂_cons_left_iff.mp flatten
      obtain ⟨nextText, _, nextFlat, restFlat, rfl⟩ := List.forall₂_cons_left_iff.mp others
      obtain ⟨flat, form, given⟩ := bind_eq_ok.mp given
      obtain ⟨flatNext, nextForm, given⟩ := bind_eq_ok.mp given
      obtain ⟨packed, packedGiven, given⟩ := bind_eq_ok.mp given
      obtain ⟨broken, _, given⟩ := bind_eq_ok.mp given
      cases given
      rw [flatten_eq_ok_iff] at form nextForm
      have flattened := itemFlat.flattened form " "
      have packedWritten :=
        packedText flatNext (.cons (nextFlat.flattened nextForm " ") restFlat) packedGiven
      rw [flat_text_choice, String.intercalate_cons_cons, spaceJoin, flat_text_concat,
        flat_text_concat, flattened.written, packedWritten, space, flat_text_text,
        String.append_assoc]
      rfl

theorem layouts_flatten
    {items : List Item}
    {texts : List String}
    (flatten : ItemsFlatten separator items texts) :
    Steady (fun layouts => AllFlatAs separator layouts texts) (items.mapM Item.toLayout) := by
  induction flatten with
  | nil => exact .pure .nil
  | cons first _ ih =>
      rw [List.mapM_cons]
      refine Steady.bind first fun layout layoutFlat => ?_
      refine Steady.bind ih fun layouts others => ?_
      exact .pure (.cons layoutFlat others)

theorem fill_flattens
    {items : List Item}
    {texts : List String}
    (flatten : ItemsFlatten " " items texts) :
    (fill items).Flattens " " (" ".intercalate texts) := by
  obtain ⟨layouts, layoutsFlat, given⟩ := layouts_flatten flatten
  cases layoutsFlat with
  | nil =>
      refine ⟨.empty, ⟨trivial, flat_text_empty⟩, ?_⟩
      rw [fill_eq]
      exact given.bind fun _ => rfl
  | @cons first text rest others firstFlat restFlat =>
      have allFlat : AllFlatAs " " (first :: rest) (text :: others) := .cons firstFlat restFlat
      obtain ⟨tail, sound, fills, tailGiven⟩ := fill_tail_fills first rest allFlat.all_clean
      refine ⟨tail.asGiven, ⟨sound.asGiven, ?_⟩, ?_⟩
      · exact filled_text allFlat fills.asGiven
      · intro checked
        exact run_fill (given checked) (tailGiven checked)

/-- Whatever is joined, its single-line text is made of the single-line texts of the items. A stack
has the separator between them, spaces and soft breaks are written as spaces, and so is what stands
between the items of a filled text. A bracket, parentheses and a group have a separator of their own
for the breaks inside, whatever the separator around them is. All this holds with the check of
choices on and off. -/
theorem texts_are_joined
    (separator : String)
    (items : List Item)
    (itemsSteady : ∀ item ∈ items, item.Steady)
    (body : Item)
    (bodySteady : body.Steady) :
    (∃ texts, ItemsFlatten separator items texts ∧
      (stack items).Flattens separator (separator.intercalate texts) ∧
      (spread items).Flattens separator (" ".intercalate texts) ∧
      (fold softJoin items).Flattens separator (" ".intercalate texts) ∧
      ∀ mark, (separated mark items).Flattens separator ((mark ++ " ").intercalate texts)) ∧
    (∃ texts, ItemsFlatten " " items texts ∧
      (fill items).Flattens " " (" ".intercalate texts)) ∧
    (∃ text, body.toLayout.Flattens " " text ∧ ∀ amount left right,
      (bracket amount left body right).Flattens separator
        (left ++ " " ++ text ++ " " ++ right)) ∧
    (∃ text, body.toLayout.Flattens "" text ∧
      (parenthesized body).Flattens separator ("(" ++ text ++ ")")) ∧
    ∀ between, ∃ text, body.toLayout.Flattens between text ∧
      Build.Flattens (do groupWith between (← body.toLayout)) separator text := by
  refine ⟨?_, ?_, ?_, ?_, ?_⟩
  · obtain ⟨texts, flatten⟩ := items_flatten separator items itemsSteady
    refine ⟨texts, flatten, ?_, ?_, ?_, ?_⟩
    · exact fold_flattens (break_join_writes separator) flatten
    · exact fold_flattens (space_join_writes separator) flatten
    · exact fold_flattens (soft_join_writes separator) flatten
    · intro mark
      exact fold_flattens (separated_join_writes separator mark) flatten
  · obtain ⟨texts, flatten⟩ := items_flatten " " items itemsSteady
    exact ⟨texts, flatten, fill_flattens flatten⟩
  · obtain ⟨text, flattens⟩ := item_flattens " " body bodySteady
    refine ⟨text, flattens, ?_⟩
    intro amount left right
    exact bracket_flattens amount left right flattens separator
  · obtain ⟨text, flattens⟩ := item_flattens "" body bodySteady
    exact ⟨text, flattens, parenthesized_flattens flattens separator⟩
  · intro between
    obtain ⟨text, flattens⟩ := item_flattens between body bodySteady
    refine ⟨text, flattens, ?_⟩
    exact Steady.bind flattens fun layout layoutFlat => group_with_flattens layoutFlat separator

/-- A group with a separator of its own, and a break behind it. -/
def groupedPair : Layout :=
  .concat (.choice (.text "b;c") (breakJoin (.text "b") (.text "c")))
    (.concat .lineBreak (.text "d"))

theorem grouped_pair_joined :
    (∀ item ∈ [.text "a", .node groupedPair], Item.Steady item) ∧
      (Item.node groupedPair).Steady ∧
      (stack [.text "a", .node groupedPair]).Flattens "|" "a|b;c|d" ∧
      (fold softJoin [.text "a", .node groupedPair]).Flattens "|" "a b;c|d" ∧
      (separated "," [.text "a", .node groupedPair]).Flattens "|" "a, b;c|d" ∧
      (fill [.text "a", .node groupedPair]).Flattens " " "a b;c d" ∧
      (bracket 2 "[" (.node groupedPair) "]").Flattens "|" "[ b;c d ]" ∧
      (parenthesized (.node groupedPair)).Flattens "|" "(b;cd)" ∧
      (groupWith "!" groupedPair).Flattens "|" "b;c!d" := by
  have clean : groupedPair.Clean := by decide
  have line (separator : String) :
      (Item.node groupedPair).toLayout.Flattens separator ("b;c" ++ (separator ++ "d")) := by
    refine .pure ⟨clean, ?_⟩
    simp only [groupedPair, flat_text_concat, flat_text_choice, flat_text_text,
      flat_text_line_break]
    rfl
  have itemsSteady : ∀ item ∈ [.text "a", .node groupedPair], Item.Steady item := by
    simp only [List.forall_mem_cons]
    exact ⟨trivial, clean, nofun⟩
  have both (separator : String) : ItemsFlatten separator [.text "a", .node groupedPair]
      ["a", "b;c" ++ (separator ++ "d")] :=
    .cons (.pure (.literal "a")) (.cons (line separator) .nil)
  obtain ⟨⟨texts, flatten, stacked, _, soft, marked⟩, ⟨spacedTexts, spacedFlatten, filled⟩,
    ⟨spaced, spacedText, bracketed⟩, ⟨closed, closedText, parentheses⟩, grouped⟩ :=
    texts_are_joined "|" _ itemsSteady (.node groupedPair) clean
  obtain ⟨marks, marksText, marksGiven⟩ := grouped "!"
  obtain rfl := items_flatten_unique (both "|") flatten
  obtain rfl := items_flatten_unique (both " ") spacedFlatten
  obtain rfl := flattens_unique (line " ") spacedText
  obtain rfl := flattens_unique (line "") closedText
  obtain rfl := flattens_unique (line "!") marksText
  exact ⟨itemsSteady, clean, stacked, soft, marked ",", filled, bracketed 2 "[" "]", parentheses,
    marksGiven⟩

end Layout

end Typeset

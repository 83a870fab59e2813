import Mathlib.Data.List.Forall2
import Typeset.Proofs.Layout.Verified

/-!
Constructions that the check of choices never disturbs. Only a choice of one's own can fail
the check. A group offers a flat form that has the text of the layout it was made from, and
the two tails of a filled text have one text, so what the builders and combinators make of
layouts without strays is the same with the check on and off.
-/

set_option autoImplicit false

namespace Typeset

namespace Build

variable {α β : Type}

/-- The construction gives the value, whether or not choices are checked. -/
def Gives (build : Build α) (value : α) : Prop := ∀ checked, build.run checked = .ok value

/-- The construction gives one and the same value, which satisfies the condition, whether
or not choices are checked. -/
def Steady (condition : α → Prop) (build : Build α) : Prop :=
  ∃ value, condition value ∧ build.Gives value

theorem Gives.bind
    {build : Build α}
    {next : α → Build β}
    {middle : α}
    {value : β}
    (before : build.Gives middle)
    (after : (next middle).Gives value) :
    (build >>= next).Gives value := by
  intro checked
  rw [ReaderT.run_bind, before checked]
  exact after checked

theorem Steady.mono
    {strong weak : α → Prop}
    {build : Build α}
    (steady : Steady strong build)
    (weaker : ∀ value, strong value → weak value) :
    Steady weak build := by
  obtain ⟨value, holds, given⟩ := steady
  exact ⟨value, weaker value holds, given⟩

theorem Steady.pure
    {condition : α → Prop}
    {value : α}
    (holds : condition value) :
    Steady condition (Pure.pure value) :=
  ⟨value, holds, fun _ => rfl⟩

theorem Steady.bind
    {first : α → Prop}
    {second : β → Prop}
    {build : Build α}
    {next : α → Build β}
    (before : Steady first build)
    (after : ∀ value, first value → Steady second (next value)) :
    Steady second (build >>= next) := by
  obtain ⟨middle, holds, given⟩ := before
  obtain ⟨value, wanted, rest⟩ := after middle holds
  exact ⟨value, wanted, given.bind rest⟩

theorem Steady.foldlM
    {invariant : β → Prop}
    {step : β → α → Build β}
    {items : List α}
    (keeps : ∀ item ∈ items, ∀ value, invariant value → Steady invariant (step value item))
    {start : β}
    (initial : invariant start) :
    Steady invariant (items.foldlM step start) := by
  induction items generalizing start with
  | nil => exact .pure initial
  | cons item rest ih =>
      rw [List.foldlM_cons]
      apply Steady.bind (keeps item List.mem_cons_self start initial)
      intro value holds
      exact ih (fun later member => keeps later (List.mem_cons_of_mem item member)) holds

end Build

open Build

/-- What an item stands for is a layout without strays, the same with the check of choices
on and off. -/
def Item.Steady : Item → Prop
  | .node layout => layout.Clean
  | .text _ => True
  | .described description _ => Build.Steady Layout.Clean description
  | .other _ => False

namespace Layout

variable {separator : String}

theorem to_layout_steady (item : Item) (steady : item.Steady) :
    Steady Clean item.toLayout := by
  cases item with
  | node layout => exact .pure steady
  | text content => exact .pure trivial
  | described description portrait => exact steady
  | other value => exact steady.elim

theorem layouts_steady
    {items : List Item}
    (steady : ∀ item ∈ items, item.Steady) :
    Steady (fun layouts => ∀ layout ∈ layouts, layout.Clean) (items.mapM Item.toLayout) := by
  induction items with
  | nil =>
      apply Steady.pure
      intro layout member
      cases member
  | cons first rest ih =>
      obtain ⟨firstSteady, restSteady⟩ := List.forall_mem_cons.mp steady
      rw [List.mapM_cons]
      apply Steady.bind (to_layout_steady first firstSteady)
      intro layout clean
      apply Steady.bind (ih restSteady)
      intro layouts others
      exact .pure (List.forall_mem_cons.mpr ⟨clean, others⟩)

theorem flatten_with_gives
    {layout flat : Layout}
    (form : flatForm separator layout = .ok flat) :
    Gives (liftM (flattenWith separator layout)) flat := by
  intro checked
  change flattenWith separator layout = .ok flat
  rw [flattenWith_eq, form]

theorem flatten_with_steady (layout : Layout) (clean : layout.Clean) :
    Steady (fun flat => flat.Clean ∧ ∀ other, flatText other flat = flatText separator layout)
      (flattenWith separator layout) := by
  obtain ⟨flat, form, flatClean, sameText⟩ := flat_form_of_clean separator layout clean
  exact ⟨flat, ⟨flatClean, sameText⟩, flatten_with_gives form⟩

theorem check_branches_of_same_text
    {primary secondary : Layout}
    (clean : primary.Clean)
    (same : flatText separator primary = flatText separator secondary) :
    checkBranches separator primary secondary = .ok () := by
  obtain ⟨text, found⟩ := flat_text_of_clean separator primary clean
  rw [checkBranches, ← same, found]
  exact if_pos rfl

theorem choose_with_steady
    {primary secondary : Layout}
    (first : primary.Clean)
    (second : secondary.Clean)
    (same : flatText separator primary = flatText separator secondary) :
    Steady (fun layout => layout = .choice primary secondary ∧ layout.Clean)
      (chooseWith separator primary secondary) := by
  refine ⟨.choice primary secondary, ⟨rfl, first, second⟩, ?_⟩
  intro checked
  cases checked with
  | false => rfl
  | true =>
      rw [run_choose_with, check_branches_of_same_text first same]
      rfl

/-- A group offers the flat form of its layout and else the layout. -/
theorem group_with_gives
    {layout flat : Layout}
    (clean : layout.Clean)
    (form : flatForm separator layout = .ok flat) :
    flat.Clean ∧ (groupWith separator layout).Gives (.choice flat layout) := by
  obtain ⟨other, same, flatClean, sameText⟩ := flat_form_of_clean separator layout clean
  rw [form] at same
  cases same
  obtain ⟨_, ⟨rfl, _⟩, chosen⟩ := choose_with_steady flatClean clean (sameText separator)
  exact ⟨flatClean, (flatten_with_gives form).bind chosen⟩

theorem group_with_steady (separator : String) {layout : Layout} (clean : layout.Clean) :
    Steady Clean (groupWith separator layout) := by
  apply Steady.bind (flatten_with_steady layout clean)
  rintro flat ⟨flatClean, flatSame⟩
  exact (choose_with_steady flatClean clean (flatSame separator)).mono fun _ made => made.2

theorem group_steady {layout : Layout} (clean : layout.Clean) : Steady Clean (group layout) :=
  group_with_steady " " clean

/-- A space and a break flatten to one text, so a soft join passes the check. -/
theorem soft_join_gives (left right : Layout) :
    (softJoin left right).Gives (.concat left (.concat (.choice space .lineBreak) right)) := by
  have blanks : space.Clean ∧ Layout.lineBreak.Clean := ⟨trivial, trivial⟩
  have between : flatText " " space = flatText " " .lineBreak := by simp [space]
  obtain ⟨_, ⟨rfl, _⟩, chosen⟩ := choose_with_steady blanks.1 blanks.2 between
  exact chosen.bind fun _ => rfl

theorem soft_join_steady
    {left right : Layout}
    (leftClean : left.Clean)
    (rightClean : right.Clean) :
    Steady Clean (softJoin left right) := by
  have clean : (Layout.concat left (.concat (.choice space .lineBreak) right)).Clean :=
    ⟨leftClean, ⟨trivial, trivial⟩, rightClean⟩
  exact ⟨_, clean, soft_join_gives left right⟩

theorem fold_steady
    {join : Layout → Layout → Build Layout}
    (joins : ∀ left right : Layout, left.Clean → right.Clean → Steady Clean (join left right))
    {items : List Item}
    (steady : ∀ item ∈ items, item.Steady) :
    Steady Clean (fold join items) := by
  cases items with
  | nil => exact .pure trivial
  | cons first rest =>
      apply Steady.bind (to_layout_steady first (steady first List.mem_cons_self))
      intro start clean
      apply Steady.foldlM _ clean
      intro item member joined joinedClean
      have later := steady item (List.mem_cons_of_mem first member)
      apply Steady.bind (to_layout_steady item later)
      intro layout layoutClean
      exact joins joined layout joinedClean layoutClean

/-- The items give, one by one, layouts that hold the parts. -/
abbrev ItemsHold {τ : Type} (holds : List τ → Layout → Prop) :
    List Item → List (List τ) → Prop :=
  List.Forall₂ fun item part => Steady (holds part) item.toLayout

/-- Items that are made one by one, in the same way. -/
theorem items_hold_map
    {α τ : Type}
    {holds : List τ → Layout → Prop}
    {members : List α}
    {item : α → Item}
    {part : α → List τ}
    (each : ∀ member ∈ members, Steady (holds (part member)) (item member).toLayout) :
    ItemsHold holds (members.map item) (members.map part) := by
  rw [ItemsHold, List.forall₂_map_left_iff, List.forall₂_map_right_iff, List.forall₂_same]
  exact each

/-- A fold gathers what its items hold, when its join puts `between` between what it joins. -/
theorem fold_gathers
    {τ : Type}
    {holds : List τ → Layout → Prop}
    {between : List τ}
    {join : Layout → Layout → Build Layout}
    (joins : ∀ before after left right, holds before left → holds after right →
      Steady (holds (before ++ between ++ after)) (join left right))
    {first : Item}
    {rest : List Item}
    {parts : List τ}
    {others : List (List τ)}
    (start : Steady (holds parts) first.toLayout)
    (later : ItemsHold holds rest others) :
    Steady (holds (parts ++ others.flatMap (between ++ ·))) (fold join (first :: rest)) := by
  refine Steady.bind start ?_
  clear start
  induction later generalizing parts with
  | nil =>
      intro joined held
      rw [List.flatMap_nil, List.append_nil]
      exact .pure held
  | cons given later ih =>
      intro joined held
      rw [List.foldlM_cons, List.flatMap_cons, ← List.append_assoc, ← List.append_assoc]
      refine Steady.bind (Steady.bind given ?_) ih
      intro layout layoutHolds
      exact joins _ _ joined layout held layoutHolds

theorem intercalate_cons {τ : Type} (between first : List τ) (rest : List (List τ)) :
    between.intercalate (first :: rest) = first ++ rest.flatMap (between ++ ·) := by
  induction rest generalizing first with
  | nil => simp
  | cons second rest ih =>
      rw [List.intercalate_cons_cons, ih, List.flatMap_cons, List.append_assoc, List.append_assoc]

theorem nil_intercalate {τ : Type} (parts : List (List τ)) :
    [].intercalate parts = parts.flatten := by
  cases parts with
  | nil => rfl
  | cons first rest =>
      rw [intercalate_cons, List.flatten_cons]
      simp only [List.nil_append, List.flatMap_id']

/-- A fold of any number of items, where the empty layout holds nothing. -/
theorem fold_gathers_all
    {τ : Type}
    {holds : List τ → Layout → Prop}
    {between : List τ}
    {join : Layout → Layout → Build Layout}
    (nothing : holds [] .empty)
    (joins : ∀ before after left right, holds before left → holds after right →
      Steady (holds (before ++ between ++ after)) (join left right))
    {items : List Item}
    {others : List (List τ)}
    (given : ItemsHold holds items others) :
    Steady (holds (between.intercalate others)) (fold join items) := by
  cases given with
  | nil => exact .pure nothing
  | cons start later =>
      rw [intercalate_cons]
      exact fold_gathers joins start later

theorem spread_steady
    {items : List Item}
    (steady : ∀ item ∈ items, item.Steady) :
    Steady Clean (spread items) := by
  apply fold_steady _ steady
  intro left right leftClean rightClean
  exact .pure ⟨leftClean, trivial, rightClean⟩

theorem stack_steady
    {items : List Item}
    (steady : ∀ item ∈ items, item.Steady) :
    Steady Clean (stack items) := by
  apply fold_steady _ steady
  intro left right leftClean rightClean
  exact .pure ⟨leftClean, trivial, rightClean⟩

theorem separated_steady
    (between : String)
    {items : List Item}
    (steady : ∀ item ∈ items, item.Steady) :
    Steady Clean (separated between items) := by
  apply fold_steady _ steady
  intro left right leftClean rightClean
  exact .pure ⟨⟨leftClean, trivial⟩, trivial, rightClean⟩

theorem bracket_steady
    (amount : Int)
    (left right : String)
    (body : Item)
    (steady : body.Steady) :
    Steady Clean (bracket amount left body right) := by
  apply Steady.bind (to_layout_steady body steady)
  intro layout clean
  exact group_steady ⟨trivial, ⟨trivial, clean⟩, trivial, trivial⟩

theorem parenthesized_steady
    (body : Item)
    (steady : body.Steady) :
    Steady Clean (parenthesized body) := by
  apply Steady.bind (to_layout_steady body steady)
  intro layout clean
  exact group_with_steady "" ⟨trivial, clean, trivial, trivial⟩

/-- Both forms of the tail have no strays, and one single-line text. -/
structure FillTail.Sound (tail : FillTail) : Prop where
  asGiven : tail.asGiven.Clean
  flattened : tail.flattened.Clean
  sameText : flatText " " tail.flattened = flatText " " tail.asGiven

/-- A space and a break flatten alike, so the parts around them decide. -/
theorem space_join_text_eq_break_join
    {left right otherLeft otherRight : Layout}
    (leftSame : flatText " " left = flatText " " otherLeft)
    (rightSame : flatText " " right = flatText " " otherRight) :
    flatText " " (spaceJoin left right) = flatText " " (breakJoin otherLeft otherRight) := by
  simp only [spaceJoin, breakJoin, space, flat_text_concat, flat_text_text,
    flat_text_line_break, leftSame, rightSame]

/-- The check of choices lets both forms of the longer tail pass. -/
theorem fill_tail_cons_gives
    {item flat : Layout}
    {tail : FillTail}
    (clean : item.Clean)
    (form : flatForm " " item = .ok flat)
    (sound : tail.Sound) :
    (FillTail.cons item tail).Gives
      ⟨.choice (spaceJoin flat tail.flattened) (breakJoin item tail.asGiven),
        .choice (spaceJoin flat tail.flattened) (breakJoin flat tail.asGiven)⟩ := by
  obtain ⟨other, same, flatClean, flatSame⟩ := flat_form_of_clean " " item clean
  rw [form] at same
  cases same
  have packed : (spaceJoin flat tail.flattened).Clean := ⟨flatClean, trivial, sound.flattened⟩
  have broken : (breakJoin item tail.asGiven).Clean := ⟨clean, trivial, sound.asGiven⟩
  have brokenFlat : (breakJoin flat tail.asGiven).Clean := ⟨flatClean, trivial, sound.asGiven⟩
  have textGiven := space_join_text_eq_break_join (flatSame " ") sound.sameText
  have textFlat := space_join_text_eq_break_join (rfl : flatText " " flat = _) sound.sameText
  obtain ⟨_, ⟨rfl, _⟩, given⟩ := choose_with_steady packed broken textGiven
  obtain ⟨_, ⟨rfl, _⟩, flattened⟩ := choose_with_steady packed brokenFlat textFlat
  exact (flatten_with_gives form).bind (given.bind (flattened.bind fun _ => rfl))

theorem fill_tail_cons_sound
    {item flat : Layout}
    {tail : FillTail}
    (clean : item.Clean)
    (form : flatForm " " item = .ok flat)
    (sound : tail.Sound) :
    FillTail.Sound
      ⟨.choice (spaceJoin flat tail.flattened) (breakJoin item tail.asGiven),
        .choice (spaceJoin flat tail.flattened) (breakJoin flat tail.asGiven)⟩ := by
  obtain ⟨other, same, flatClean, _⟩ := flat_form_of_clean " " item clean
  rw [form] at same
  cases same
  refine ⟨?_, ?_, ?_⟩
  · exact ⟨⟨flatClean, trivial, sound.flattened⟩, clean, trivial, sound.asGiven⟩
  · exact ⟨⟨flatClean, trivial, sound.flattened⟩, flatClean, trivial, sound.asGiven⟩
  · -- Both choices have one primary branch, and that alone counts for the text.
    rw [flat_text_choice, flat_text_choice]

theorem fill_tail_cons_steady
    {item : Layout}
    {tail : FillTail}
    (clean : item.Clean)
    (sound : tail.Sound) :
    Steady FillTail.Sound (FillTail.cons item tail) := by
  obtain ⟨flat, form, _⟩ := flat_form_of_clean " " item clean
  exact ⟨_, fill_tail_cons_sound clean form sound, fill_tail_cons_gives clean form sound⟩

theorem fill_steady
    {items : List Item}
    (steady : ∀ item ∈ items, item.Steady) :
    Steady Clean (fill items) := by
  apply Steady.bind (layouts_steady steady)
  intro layouts clean
  have backwards : ∀ layout ∈ layouts.reverse, layout.Clean := by
    intro layout member
    exact clean layout (List.mem_reverse.mp member)
  cases reversed : layouts.reverse with
  | nil => exact .pure trivial
  | cons last before =>
      rw [reversed] at backwards
      obtain ⟨lastClean, beforeClean⟩ := List.forall_mem_cons.mp backwards
      apply Steady.bind (flatten_with_steady last lastClean)
      rintro flat ⟨flatClean, flatSame⟩
      have tails : Steady FillTail.Sound
          (before.foldlM (fun tail item => FillTail.cons item tail) ⟨last, flat⟩) := by
        apply Steady.foldlM _ ⟨lastClean, flatClean, flatSame " "⟩
        intro item member tail sound
        exact fill_tail_cons_steady (beforeClean item member) sound
      apply Steady.bind tails
      intro tail sound
      exact .pure sound.asGiven

/-- Another layout that a method takes part in is steady. -/
def Method.Steady : Method → Prop
  | .concat other | .spaceJoin other | .breakJoin other | .softJoin other => other.Steady
  | .indent _ | .group | .flatten _ => True

theorem method_steady
    {layout : Layout}
    (clean : layout.Clean)
    (method : Method)
    (steady : method.Steady) :
    Build.Steady Clean (method.apply layout) := by
  cases method with
  | concat other =>
      apply Steady.bind (to_layout_steady other steady)
      intro right rightClean
      exact .pure ⟨clean, rightClean⟩
  | spaceJoin other | breakJoin other =>
      apply Steady.bind (to_layout_steady other steady)
      intro right rightClean
      exact .pure ⟨clean, trivial, rightClean⟩
  | softJoin other =>
      apply Steady.bind (to_layout_steady other steady)
      intro right rightClean
      exact soft_join_steady clean rightClean
  | indent amount => exact .pure clean
  | group => exact group_steady clean
  | flatten separator => exact (flatten_with_steady layout clean).mono fun _ made => made.1

end Layout

end Typeset

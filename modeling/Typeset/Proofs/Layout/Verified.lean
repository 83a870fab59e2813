import Typeset.Layout.Combinators
import Typeset.Proofs.Layout.Choices

/-!
What a construction with the check of choices on is sure of. A choice is built only when
both branches have one single-line text under its separator. So a relation that follows
from such a check holds of every choice that the builders and combinators make, provided
that it held of every choice they were given.
-/

set_option autoImplicit false

namespace Typeset

namespace Build

variable {α β : Type}

/-- With the check on, whatever the construction gives satisfies the condition. -/
def Ensures (condition : α → Prop) (build : Build α) : Prop :=
  ∀ value, build.run true = .ok value → condition value

theorem Ensures.pure
    {condition : α → Prop}
    {value : α}
    (holds : condition value) :
    Ensures condition (Pure.pure value) := by
  intro other given
  cases given
  exact holds

theorem Ensures.throw {condition : α → Prop} (fault : LayoutFault) :
    Ensures condition (MonadExcept.throw fault) := by
  intro value given
  cases given

theorem Ensures.lift
    {condition : α → Prop}
    {outcome : Except LayoutFault α}
    (holds : ∀ value, outcome = .ok value → condition value) :
    Ensures condition (liftM outcome) :=
  holds

theorem Ensures.bind
    {first : α → Prop}
    {second : β → Prop}
    {build : Build α}
    {next : α → Build β}
    (before : Ensures first build)
    (after : ∀ value, first value → Ensures second (next value)) :
    Ensures second (build >>= next) := by
  intro value given
  rw [ReaderT.run_bind] at given
  obtain ⟨middle, built, rest⟩ := bind_eq_ok.mp given
  exact after middle (before middle built) value rest

theorem Ensures.foldlM
    {invariant : β → Prop}
    {step : β → α → Build β}
    {items : List α}
    (keeps : ∀ item ∈ items, ∀ value, invariant value → Ensures invariant (step value item))
    {start : β}
    (initial : invariant start) :
    Ensures invariant (items.foldlM step start) := by
  induction items generalizing start with
  | nil => exact .pure initial
  | cons item rest ih =>
      rw [List.foldlM_cons]
      refine .bind (keeps item List.mem_cons_self start initial) fun value holds => ?_
      exact ih (fun later member => keeps later (List.mem_cons_of_mem item member)) holds

end Build

open Build

/-- What an item stands for satisfies the condition, whenever it is asked for. -/
def Item.Keeps (condition : Layout → Prop) : Item → Prop
  | .node layout => condition layout
  | .text _ | .other _ => True
  | .described description _ => Ensures condition description

namespace Layout

variable {agree : Layout → Layout → Prop} {separator : String}

/-- Branches that pass the check under the separator are related. -/
def Follows (agree : Layout → Layout → Prop) (separator : String) : Prop :=
  ∀ primary secondary text, flatText separator primary = .ok text →
    flatText separator secondary = .ok text → agree primary secondary

theorem to_layout_ensures
    (item : Item)
    (keeps : item.Keeps (EveryChoice agree)) :
    Ensures (EveryChoice agree) item.toLayout := by
  cases item with
  | node layout => exact .pure keeps
  | text content => exact .pure trivial
  | described description portrait => exact keeps
  | other value => exact .throw _

theorem as_child_every
    (item : Item)
    (keeps : item.Keeps (EveryChoice agree)) :
    item.asChild.EveryChoice agree := by
  cases item with
  | node layout => exact keeps
  | text content => trivial
  | described description portrait => trivial
  | other value => trivial

theorem layouts_ensure
    {items : List Item}
    (keep : ∀ item ∈ items, item.Keeps (EveryChoice agree)) :
    Ensures (fun layouts => ∀ layout ∈ layouts, layout.EveryChoice agree)
      (items.mapM Item.toLayout) := by
  induction items with
  | nil => exact .pure fun layout member => absurd member List.not_mem_nil
  | cons first rest ih =>
      obtain ⟨firstKeeps, restKeep⟩ := List.forall_mem_cons.mp keep
      rw [List.mapM_cons]
      refine .bind (to_layout_ensures first firstKeeps) fun layout every => ?_
      refine .bind (ih restKeep) fun layouts others => ?_
      exact .pure (List.forall_mem_cons.mpr ⟨every, others⟩)

theorem check_branches_ok
    {primary secondary : Layout}
    (passed : checkBranches separator primary secondary = .ok ()) :
    ∃ text, flatText separator primary = .ok text ∧ flatText separator secondary = .ok text := by
  obtain ⟨primaryText, primaryFound, passed⟩ := bind_eq_ok.mp passed
  obtain ⟨secondaryText, secondaryFound, passed⟩ := bind_eq_ok.mp passed
  by_cases same : primaryText = secondaryText
  · rw [← same] at secondaryFound
    exact ⟨primaryText, primaryFound, secondaryFound⟩
  · rw [if_neg same] at passed
    cases passed

theorem run_choose_with (separator : String) (primary secondary : Layout) :
    (chooseWith separator primary secondary).run true =
      (checkBranches separator primary secondary).map fun _ => .choice primary secondary := by
  change (checkBranches separator primary secondary >>= fun _ => _) = _
  cases checkBranches separator primary secondary with
  | error fault => rfl
  | ok passes => rfl

theorem run_group_with
    {layout flat : Layout}
    (form : flatForm separator layout = .ok flat) :
    (groupWith separator layout).run true =
      (checkBranches separator flat layout).map fun _ => .choice flat layout := by
  rw [groupWith, flattenWith_eq, form]
  exact run_choose_with separator flat layout

/-- A soft join never fails, as its two branches are a space each. -/
theorem run_soft_join (left right : Layout) :
    (softJoin left right).run true =
      .ok (.concat left (.concat (.choice space .lineBreak) right)) := by
  have passes : checkBranches " " space .lineBreak = .ok () := by
    rw [checkBranches, space, flat_text_text, flat_text_line_break]
    rfl
  rw [softJoin, choose, ReaderT.run_bind, run_choose_with, passes]
  rfl

theorem choose_with_ensures
    (follows : Follows agree separator)
    {primary secondary : Layout}
    (first : primary.EveryChoice agree)
    (second : secondary.EveryChoice agree) :
    Ensures (EveryChoice agree) (chooseWith separator primary secondary) := by
  intro layout built
  rw [run_choose_with] at built
  cases passed : checkBranches separator primary secondary with
  | error fault =>
      rw [passed] at built
      cases built
  | ok passes =>
      rw [passed] at built
      cases built
      obtain ⟨text, primaryText, secondaryText⟩ := check_branches_ok passed
      exact ⟨follows _ _ text primaryText secondaryText, first, second⟩

theorem flatten_with_ensures
    (agree : Layout → Layout → Prop)
    (separator : String)
    (layout : Layout) :
    Ensures (EveryChoice agree) (flattenWith separator layout) := by
  apply Ensures.lift
  intro flat form
  rw [flattenWith_eq] at form
  exact every_choice_of_flat_form agree separator layout flat form

theorem group_with_ensures
    (follows : Follows agree separator)
    {layout : Layout}
    (every : layout.EveryChoice agree) :
    Ensures (EveryChoice agree) (groupWith separator layout) := by
  refine .bind (flatten_with_ensures agree separator layout) fun flat flatEvery => ?_
  exact choose_with_ensures follows flatEvery every

theorem space_join_every
    {left right : Layout}
    (first : left.EveryChoice agree)
    (second : right.EveryChoice agree) :
    (spaceJoin left right).EveryChoice agree :=
  ⟨first, trivial, second⟩

theorem break_join_every
    {left right : Layout}
    (first : left.EveryChoice agree)
    (second : right.EveryChoice agree) :
    (breakJoin left right).EveryChoice agree :=
  ⟨first, trivial, second⟩

theorem fold_ensures
    {join : Layout → Layout → Build Layout}
    (joins : ∀ left right : Layout, left.EveryChoice agree → right.EveryChoice agree →
      Ensures (EveryChoice agree) (join left right))
    {items : List Item}
    (keep : ∀ item ∈ items, item.Keeps (EveryChoice agree)) :
    Ensures (EveryChoice agree) (fold join items) := by
  cases items with
  | nil => exact .pure trivial
  | cons first rest =>
      refine .bind (to_layout_ensures first (keep first List.mem_cons_self)) fun start every => ?_
      refine .foldlM (fun item member joined before => ?_) every
      refine .bind (to_layout_ensures item (keep item (List.mem_cons_of_mem first member))) ?_
      intro layout after
      exact joins joined layout before after

theorem spread_ensures
    {items : List Item}
    (keep : ∀ item ∈ items, item.Keeps (EveryChoice agree)) :
    Ensures (EveryChoice agree) (spread items) :=
  fold_ensures (fun _ _ first second => .pure (space_join_every first second)) keep

theorem stack_ensures
    {items : List Item}
    (keep : ∀ item ∈ items, item.Keeps (EveryChoice agree)) :
    Ensures (EveryChoice agree) (stack items) :=
  fold_ensures (fun _ _ first second => .pure (break_join_every first second)) keep

theorem separated_ensures
    (between : String)
    {items : List Item}
    (keep : ∀ item ∈ items, item.Keeps (EveryChoice agree)) :
    Ensures (EveryChoice agree) (separated between items) := by
  refine fold_ensures (fun left right first second => ?_) keep
  have closed : (Layout.concat left (.text between)).EveryChoice agree := ⟨first, trivial⟩
  exact .pure (space_join_every closed second)

theorem parenthesized_ensures
    (follows : Follows agree "")
    {body : Item}
    (keeps : body.Keeps (EveryChoice agree)) :
    Ensures (EveryChoice agree) (parenthesized body) := by
  refine .bind (to_layout_ensures body keeps) fun layout every => ?_
  exact group_with_ensures follows ⟨trivial, break_join_every every trivial⟩

section

variable (follows : Follows agree " ")

include follows

theorem choose_ensures
    {primary secondary : Layout}
    (first : primary.EveryChoice agree)
    (second : secondary.EveryChoice agree) :
    Ensures (EveryChoice agree) (choose primary secondary) :=
  choose_with_ensures follows first second

theorem soft_join_ensures
    {left right : Layout}
    (first : left.EveryChoice agree)
    (second : right.EveryChoice agree) :
    Ensures (EveryChoice agree) (softJoin left right) := by
  refine .bind (choose_ensures follows trivial trivial) fun between every => ?_
  exact .pure ⟨first, every, second⟩

theorem group_ensures
    {layout : Layout}
    (every : layout.EveryChoice agree) :
    Ensures (EveryChoice agree) (group layout) :=
  group_with_ensures follows every

theorem bracket_ensures
    (amount : Int)
    (left right : String)
    {body : Item}
    (keeps : body.Keeps (EveryChoice agree)) :
    Ensures (EveryChoice agree) (bracket amount left body right) := by
  refine .bind (to_layout_ensures body keeps) fun layout every => ?_
  exact group_ensures follows ⟨trivial, ⟨trivial, every⟩, trivial, trivial⟩

def FillTail.Every (agree : Layout → Layout → Prop) (tail : FillTail) : Prop :=
  tail.asGiven.EveryChoice agree ∧ tail.flattened.EveryChoice agree

theorem fill_tail_cons_ensures
    {item : Layout}
    {tail : FillTail}
    (every : item.EveryChoice agree)
    (tailEvery : FillTail.Every agree tail) :
    Ensures (FillTail.Every agree) (FillTail.cons item tail) := by
  refine .bind (flatten_with_ensures agree " " item) fun flat flatEvery => ?_
  have packed := space_join_every flatEvery tailEvery.2
  refine .bind (choose_ensures follows packed (break_join_every every tailEvery.1)) ?_
  intro asGiven givenEvery
  refine .bind (choose_ensures follows packed (break_join_every flatEvery tailEvery.1)) ?_
  intro flattened flattenedEvery
  exact .pure ⟨givenEvery, flattenedEvery⟩

theorem fill_ensures
    {items : List Item}
    (keep : ∀ item ∈ items, item.Keeps (EveryChoice agree)) :
    Ensures (EveryChoice agree) (fill items) := by
  refine .bind (layouts_ensure keep) fun layouts every => ?_
  have backwards : ∀ layout ∈ layouts.reverse, layout.EveryChoice agree := by
    intro layout member
    exact every layout (List.mem_reverse.mp member)
  cases reversed : layouts.reverse with
  | nil => exact .pure trivial
  | cons last before =>
      rw [reversed] at backwards
      obtain ⟨lastEvery, beforeEvery⟩ := List.forall_mem_cons.mp backwards
      refine .bind (flatten_with_ensures agree " " last) fun flat flatEvery => ?_
      have tails : Ensures (FillTail.Every agree)
          (before.foldlM (fun tail item => FillTail.cons item tail) ⟨last, flat⟩) :=
        .foldlM (fun item member tail tailEvery =>
          fill_tail_cons_ensures follows (beforeEvery item member) tailEvery)
          ⟨lastEvery, flatEvery⟩
      exact .bind tails fun tail tailEvery => .pure tailEvery.1

end

end Layout

end Typeset

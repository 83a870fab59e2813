import Typeset.Proofs.Layout.Verified
import Typeset.Proofs.Resolution.Content

/-!
Layouts that are made by calls of builders and combinators alone, while choices are
checked. Each check looks at one choice, under the separator of that choice, and at primary
branches only. Together the checks see to it that no width changes anything but spaces and
line breaks: `verified_differs_in_blanks`.
-/

set_option autoImplicit false

namespace Typeset

open Build

/-- What is made of one layout. -/
inductive Wrapping where
  | indent (amount : Int)
  | flatten
  | flattenWith (separator : String)
  | group
  | groupWith (separator : String)

def Wrapping.apply : Wrapping → Layout → Build Layout
  | .indent amount, layout => return .indent amount layout
  | .flatten, layout => Layout.flatten layout
  | .flattenWith separator, layout => Layout.flattenWith separator layout
  | .group, layout => Layout.group layout
  | .groupWith separator, layout => Layout.groupWith separator layout

def Wrapping.GroupsWith (allowed : String → Prop) : Wrapping → Prop
  | .groupWith separator => allowed separator
  | .indent _ | .flatten | .flattenWith _ | .group => True

/-- What is made of two layouts. -/
inductive Joining where
  | concat
  | spaceJoin
  | breakJoin
  | softJoin
  | choice

def Joining.apply : Joining → Layout → Layout → Build Layout
  | .concat, left, right => return .concat left right
  | .spaceJoin, left, right => return Layout.spaceJoin left right
  | .breakJoin, left, right => return Layout.breakJoin left right
  | .softJoin, left, right => Layout.softJoin left right
  | .choice, primary, secondary => Layout.choose primary secondary

/-- What is put around an item. -/
inductive Enclosing where
  | bracket (amount : Int) (left right : String)
  | parentheses

def Enclosing.apply : Enclosing → Item → Build Layout
  | .bracket amount left right, body => Layout.bracket amount left body right
  | .parentheses, body => Layout.parenthesized body

/-- Parentheses are a group with the empty separator. -/
def Enclosing.GroupsWith (allowed : String → Prop) : Enclosing → Prop
  | .parentheses => allowed ""
  | .bracket .. => True

/-- What is made of a list of items. -/
inductive Listing where
  | spread
  | stack
  | separated (separator : String)
  | fill

def Listing.apply : Listing → List Item → Build Layout
  | .spread, items => Layout.spread items
  | .stack, items => Layout.stack items
  | .separated separator, items => Layout.separated separator items
  | .fill, items => Layout.fill items

/-- Calls of builders and combinators, each applied to what other calls give. What is used
in several places stands in each of them, as the same calls give equal layouts. A text or
another value may be handed over as it is, or something that describes itself. The join of
a fold finds its two layouts at the places 0 and 1, and those of the folds around it after
them. A place that nothing is bound to stands for the empty layout. -/
inductive Construction where
  | argument (place : Nat)
  | plain (content : String)
  | foreign (value : Stray)
  | described (description : Construction) (portrait : Portrait := .plain)
  | literal (content : String)
  | empty
  | lineBreak
  | wrapped (wrapping : Wrapping) (body : Construction)
  | joined (joining : Joining) (left right : Construction)
  | enclosed (enclosing : Enclosing) (body : Construction)
  | listed (listing : Listing) (parts : List Construction)
  | folded (join : Construction) (parts : List Construction)

namespace Construction

mutual

/-- Makes the calls, those for the arguments of a call before the call itself. -/
def item : Construction → (arguments : List Layout) → Build Item
  | .argument place, arguments => return .node (arguments.getD place .empty)
  | .plain content, _ => return .text content
  | .foreign value, _ => return .other value
  | .described description portrait, arguments =>
      return .described (do (← description.item arguments).toLayout) portrait
  | .literal content, _ => return .node (.text content)
  | .empty, _ => return .node .empty
  | .lineBreak, _ => return .node .lineBreak
  | .wrapped wrapping body, arguments => do
      return .node (← wrapping.apply (← body.item arguments).asChild)
  | .joined joining left right, arguments => do
      let first ← left.item arguments
      let second ← right.item arguments
      return .node (← joining.apply first.asChild second.asChild)
  | .enclosed enclosing body, arguments => do
      return .node (← enclosing.apply (← body.item arguments))
  | .listed listing parts, arguments => do
      return .node (← listing.apply (← items parts arguments))
  | .folded join parts, arguments => do
      let joining (left right : Layout) : Build Layout := do
        return (← join.item (left :: right :: arguments)).asChild
      return .node (← Layout.fold joining (← items parts arguments))

def items : List Construction → (arguments : List Layout) → Build (List Item)
  | [], _ => return []
  | first :: rest, arguments => do
      return (← first.item arguments) :: (← items rest arguments)

end

def layout (construction : Construction) : Build Layout := do
  (← construction.item []).toLayout

mutual

/-- Every separator that a group is built with is allowed, wherever the group stands. -/
def GroupsWith (allowed : String → Prop) : Construction → Prop
  | .argument _ | .plain _ | .foreign _ | .literal _ | .empty | .lineBreak => True
  | .described description _ => GroupsWith allowed description
  | .wrapped wrapping body => wrapping.GroupsWith allowed ∧ GroupsWith allowed body
  | .joined _ left right => GroupsWith allowed left ∧ GroupsWith allowed right
  | .enclosed enclosing body => enclosing.GroupsWith allowed ∧ GroupsWith allowed body
  | .listed _ parts => AllGroupWith allowed parts
  | .folded join parts => GroupsWith allowed join ∧ AllGroupWith allowed parts

def AllGroupWith (allowed : String → Prop) : List Construction → Prop
  | [] => True
  | first :: rest => GroupsWith allowed first ∧ AllGroupWith allowed rest

end

end Construction

section

variable {agree : Layout → Layout → Prop} {allowed : String → Prop}
variable (spaces : Layout.Follows agree " ")
variable (follows : ∀ separator, allowed separator → Layout.Follows agree separator)

include spaces

theorem Joining.apply_ensures
    (joining : Joining)
    {left right : Layout}
    (first : left.EveryChoice agree)
    (second : right.EveryChoice agree) :
    Ensures (Layout.EveryChoice agree) (joining.apply left right) := by
  cases joining with
  | concat => exact .pure ⟨first, second⟩
  | spaceJoin => exact .pure (Layout.space_join_every first second)
  | breakJoin => exact .pure (Layout.break_join_every first second)
  | softJoin => exact Layout.soft_join_ensures spaces first second
  | choice => exact Layout.choose_ensures spaces first second

theorem Listing.apply_ensures
    (listing : Listing)
    {items : List Item}
    (keep : ∀ item ∈ items, item.Keeps (Layout.EveryChoice agree)) :
    Ensures (Layout.EveryChoice agree) (listing.apply items) := by
  cases listing with
  | spread => exact Layout.spread_ensures keep
  | stack => exact Layout.stack_ensures keep
  | separated separator => exact Layout.separated_ensures separator keep
  | fill => exact Layout.fill_ensures spaces keep

include follows

theorem Wrapping.apply_ensures
    (wrapping : Wrapping)
    (groups : wrapping.GroupsWith allowed)
    {layout : Layout}
    (every : layout.EveryChoice agree) :
    Ensures (Layout.EveryChoice agree) (wrapping.apply layout) := by
  cases wrapping with
  | indent amount => exact .pure every
  | flatten => exact Layout.flatten_with_ensures agree " " layout
  | flattenWith separator => exact Layout.flatten_with_ensures agree separator layout
  | group => exact Layout.group_ensures spaces every
  | groupWith separator => exact Layout.group_with_ensures (follows separator groups) every

theorem Enclosing.apply_ensures
    (enclosing : Enclosing)
    (groups : enclosing.GroupsWith allowed)
    {body : Item}
    (keeps : body.Keeps (Layout.EveryChoice agree)) :
    Ensures (Layout.EveryChoice agree) (enclosing.apply body) := by
  cases enclosing with
  | bracket amount left right => exact Layout.bracket_ensures spaces amount left right keeps
  | parentheses => exact Layout.parenthesized_ensures (follows "" groups) keeps

end

namespace Construction

variable {agree : Layout → Layout → Prop} {allowed : String → Prop}

mutual

/-- The calls of a construction make items whose choices are all related, when their
arguments are such. -/
theorem item_ensures
    (spaces : Layout.Follows agree " ")
    (follows : ∀ separator, allowed separator → Layout.Follows agree separator)
    (construction : Construction)
    (groups : construction.GroupsWith allowed)
    (arguments : List Layout)
    (bound : ∀ argument ∈ arguments, argument.EveryChoice agree) :
    Ensures (Item.Keeps (Layout.EveryChoice agree)) (construction.item arguments) := by
  cases construction with
  | argument place =>
      refine .pure ?_
      rw [Item.Keeps, List.getD_eq_getElem?_getD]
      cases found : arguments[place]? with
      | none => trivial
      | some layout => exact bound layout (List.mem_of_getElem? found)
  | plain content => exact .pure trivial
  | foreign value => exact .pure trivial
  | literal content => exact .pure trivial
  | empty => exact .pure trivial
  | lineBreak => exact .pure trivial
  | described description portrait =>
      have inner := item_ensures spaces follows description groups arguments bound
      exact .pure (.bind inner fun item keeps => Layout.to_layout_ensures item keeps)
  | wrapped wrapping body =>
      have inner := item_ensures spaces follows body groups.2 arguments bound
      refine .bind inner fun item keeps => ?_
      have every := Layout.as_child_every item keeps
      refine .bind (wrapping.apply_ensures spaces follows groups.1 every) fun whole made => ?_
      exact .pure made
  | joined joining left right =>
      have leftStep := item_ensures spaces follows left groups.1 arguments bound
      have rightStep := item_ensures spaces follows right groups.2 arguments bound
      refine .bind leftStep fun leftItem leftKeeps => ?_
      have firstEvery := Layout.as_child_every leftItem leftKeeps
      refine .bind rightStep fun rightItem rightKeeps => ?_
      have secondEvery := Layout.as_child_every rightItem rightKeeps
      refine .bind (joining.apply_ensures spaces firstEvery secondEvery) fun whole made => ?_
      exact .pure made
  | enclosed enclosing body =>
      have inner := item_ensures spaces follows body groups.2 arguments bound
      refine .bind inner fun item keeps => ?_
      refine .bind (enclosing.apply_ensures spaces follows groups.1 keeps) fun whole made => ?_
      exact .pure made
  | listed listing parts =>
      refine .bind (items_ensure spaces follows parts groups arguments bound) fun items keep => ?_
      refine .bind (listing.apply_ensures spaces keep) fun whole made => ?_
      exact .pure made
  | folded join parts =>
      refine .bind (items_ensure spaces follows parts groups.2 arguments bound) fun items keep => ?_
      -- The two layouts of a step are bound before the arguments of the fold itself.
      have joins (left right : Layout) (leftEvery : left.EveryChoice agree)
          (rightEvery : right.EveryChoice agree) :
          Ensures (Layout.EveryChoice agree) (do
            return (← join.item (left :: right :: arguments)).asChild) := by
        have extended : ∀ argument ∈ left :: right :: arguments,
            argument.EveryChoice agree :=
          List.forall_mem_cons.mpr ⟨leftEvery, List.forall_mem_cons.mpr ⟨rightEvery, bound⟩⟩
        have inner := item_ensures spaces follows join groups.1 _ extended
        exact .bind inner fun item keeps => .pure (Layout.as_child_every item keeps)
      refine .bind (Layout.fold_ensures joins keep) fun whole made => ?_
      exact .pure made

theorem items_ensure
    (spaces : Layout.Follows agree " ")
    (follows : ∀ separator, allowed separator → Layout.Follows agree separator)
    (parts : List Construction)
    (groups : AllGroupWith allowed parts)
    (arguments : List Layout)
    (bound : ∀ argument ∈ arguments, argument.EveryChoice agree) :
    Ensures (fun items => ∀ item ∈ items, item.Keeps (Layout.EveryChoice agree))
      (items parts arguments) := by
  cases parts with
  | nil => exact .pure fun item member => absurd member List.not_mem_nil
  | cons first rest =>
      refine .bind (item_ensures spaces follows first groups.1 arguments bound) fun item keeps => ?_
      refine .bind (items_ensure spaces follows rest groups.2 arguments bound) fun others keep => ?_
      exact .pure (List.forall_mem_cons.mpr ⟨keeps, keep⟩)

end

theorem layout_ensures
    (spaces : Layout.Follows agree " ")
    (follows : ∀ separator, allowed separator → Layout.Follows agree separator)
    (construction : Construction)
    (groups : construction.GroupsWith allowed) :
    Ensures (Layout.EveryChoice agree) construction.layout := by
  have made := item_ensures spaces follows construction groups []
    fun argument member => absurd member List.not_mem_nil
  exact .bind made fun item keeps => Layout.to_layout_ensures item keeps

end Construction

namespace Layout

/-- Branches that pass the check look alike to a view that takes the separator for a
space. -/
theorem follows_look_alike
    (view : Text.View)
    (separator : String)
    (space : view.seen separator = view.seen " ") :
    Follows (LookAlike view " ") separator := by
  intro primary secondary text primaryText secondaryText
  rw [LookAlike, ← seen_flat_separator view separator " " space,
    ← seen_flat_separator view separator " " space, seenFlat, seenFlat, primaryText,
    secondaryText]

end Layout

theorem Token.ink_chunk_line (indent : Int) : Text.ink (Token.chunk (.line indent)) = "" := by
  apply Text.ink_eq_empty
  intro c member
  simp only [chunk, String.toList_append, String.toList_ofList, List.mem_append,
    List.mem_replicate] at member
  rcases member with newline | ⟨_, rfl⟩
  · exact .inr (by simpa using newline)
  · exact .inl rfl

namespace Construction

open Layout in
/-- A layout that is made with choices checked, and with nothing but spaces for the
separators of groups, reads the same at all widths but for spaces and line breaks. With
single spaces, which rules out parentheses, its tokens have one single-line text when every
break is written as a space. -/
theorem verified_differs_in_blanks
    (construction : Construction)
    (blank : construction.GroupsWith fun separator => ∀ c ∈ separator.toList, c = ' ')
    (layout : Layout)
    (built : construction.layout.run true = .ok layout)
    (clean : layout.Clean) :
    ∃ flat, flatText " " layout = .ok flat ∧
      (∀ width column, ∃ text, layout.pretty width column = .ok text ∧
        Text.ink text = Text.ink flat) ∧
      (∀ width column otherWidth otherColumn text other,
        layout.pretty width column = .ok text →
        layout.pretty otherWidth otherColumn = .ok other → Text.ink text = Text.ink other) ∧
      (construction.GroupsWith (fun separator => separator = " ") →
        ∀ width column, ∃ tokens, (layout.resolve width column).all = ⟨tokens, none⟩ ∧
          Token.written (fun _ => " ") tokens = flat) := by
  obtain ⟨flat, flatFound⟩ := flat_text_of_clean " " layout clean
  have inkSpace : Text.ink " " = "" := Text.ink_eq_empty " " (by simp)
  have inked : layout.EveryChoice (LookAlike .inked " ") := by
    have follows (separator : String) (only : ∀ c ∈ separator.toList, c = ' ') :
        Follows (LookAlike .inked " ") separator := by
      apply follows_look_alike
      have none : Text.ink separator = "" :=
        Text.ink_eq_empty separator fun c member => .inl (only c member)
      exact none.trans inkSpace.symm
    exact layout_ensures (follows " " (by simp)) follows construction blank layout built
  have everyWidth (width column : Int) : ∃ text, layout.pretty width column = .ok text ∧
      Text.ink text = Text.ink flat := by
    obtain ⟨tokens, delivered, seen⟩ := seen_of_resolve .inked
      (fun indent => Token.chunk (.line indent)) " "
      (fun indent => (Token.ink_chunk_line indent).trans inkSpace.symm) layout clean inked
      width column
    rw [seenFlat, flatFound, ← Token.render_eq_written] at seen
    exact ⟨_, pretty_of_all delivered, (Except.ok.inj seen).symm⟩
  refine ⟨flat, flatFound, everyWidth, ?_, ?_⟩
  · intro width column otherWidth otherColumn text other given otherGiven
    obtain ⟨first, firstGiven, firstInk⟩ := everyWidth width column
    obtain ⟨second, secondGiven, secondInk⟩ := everyWidth otherWidth otherColumn
    rw [firstGiven] at given
    rw [secondGiven] at otherGiven
    rw [← Except.ok.inj given, ← Except.ok.inj otherGiven, firstInk, secondInk]
  · intro single width column
    have follows (separator : String) (same : separator = " ") :
        Follows (LookAlike .whole " ") separator := by
      apply follows_look_alike
      rw [same]
    have whole : layout.EveryChoice (LookAlike .whole " ") :=
      layout_ensures (follows " " rfl) follows construction single layout built
    obtain ⟨tokens, delivered, seen⟩ := seen_of_resolve .whole (fun _ => " ") " "
      (fun _ => rfl) layout clean whole width column
    rw [seen_flat_whole, flatFound] at seen
    exact ⟨tokens, delivered, (Except.ok.inj seen).symm⟩

/-- A group without anything between its lines around words that a fold joins softly. The
choice inside was checked under another separator than the group. -/
def softGroup : Construction :=
  .wrapped (.groupWith "")
    (.folded (.joined .softJoin (.argument 0) (.argument 1)) [.plain "a", .plain "b"])

/-- The words on one line, or with a break between them where they do not fit. -/
def softWords : Layout :=
  .choice (.concat (.text "a") (.concat (.text " ") (.text "b")))
    (.concat (.text "a") (.concat (.choice .space .lineBreak) (.text "b")))

theorem soft_group_differs_in_blanks :
    softGroup.GroupsWith (fun separator => ∀ c ∈ separator.toList, c = ' ') ∧
      softGroup.layout.run true = .ok softWords ∧ softWords.Clean ∧
      ∀ width column otherWidth otherColumn text other,
        softWords.pretty width column = .ok text →
        softWords.pretty otherWidth otherColumn = .ok other → Text.ink text = Text.ink other := by
  have blank : softGroup.GroupsWith fun separator => ∀ c ∈ separator.toList, c = ' ' :=
    ⟨by simp [Wrapping.GroupsWith], ⟨trivial, trivial⟩, trivial, trivial, trivial⟩
  have built : softGroup.layout.run true = .ok softWords := by
    have passes : Layout.checkBranches "" (.concat (.text "a") (.concat (.text " ") (.text "b")))
        (.concat (.text "a") (.concat (.choice .space .lineBreak) (.text "b"))) = .ok () := by
      simp only [Layout.checkBranches, Layout.space, Layout.flatText, Layout.writeFlat]
      rfl
    simp only [Construction.layout, softGroup, item, items, Layout.fold, Item.toLayout,
      Item.asChild, Wrapping.apply, Joining.apply, pure_bind, bind_pure, bind_assoc,
      List.foldlM_cons, List.foldlM_nil, List.getD_cons_zero, List.getD_cons_succ,
      ReaderT.run_bind, Layout.run_soft_join]
    change (Layout.groupWith "" _).run true = .ok softWords
    rw [Layout.run_group_with rfl, passes]
    rfl
  have clean : softWords.Clean := by decide
  obtain ⟨flat, _, _, alike, _⟩ :=
    verified_differs_in_blanks softGroup blank softWords built clean
  exact ⟨blank, built, clean, alike⟩

end Construction

end Typeset

import Typeset.Proofs.Layout.Steady
import Typeset.Proofs.Resolution.Interchange

/-!
Laws of sequences and indentations. How a sequence is nested makes no difference, the empty
layout none in it, and indentations add up and may be put on the parts of a sequence one by
one. So layouts can be joined from the left, as folds do it, or from the right, with the
same tokens, in whatever context: `sequences_regroup`.
-/

set_option autoImplicit false

namespace Typeset.Layout

open Build

namespace Interchangeable

theorem concat_concat (first second third : Layout) :
    (Layout.concat (.concat first second) third).Interchangeable
      (.concat first (.concat second third)) := by
  intro width column around rest
  have nested : ∀ column,
      Queue.trace width column (⟨around, second⟩ :: ⟨around, third⟩ :: rest) =
        Queue.trace width column (⟨around, .concat second third⟩ :: rest) := by
    intro column
    rw [Queue.trace]
  simp only [Queue.trace]
  exact Queue.trace_behind nested column ⟨around, first⟩

theorem empty_concat (layout : Layout) : (Layout.concat .empty layout).Interchangeable layout := by
  intro width column around rest
  rw [Queue.trace, Queue.trace]

theorem concat_empty (layout : Layout) : (Layout.concat layout .empty).Interchangeable layout := by
  intro width column around rest
  have dropped : ∀ column,
      Queue.trace width column (⟨around, .empty⟩ :: rest) = Queue.trace width column rest := by
    intro column
    rw [Queue.trace]
  rw [Queue.trace]
  exact Queue.trace_behind dropped column ⟨around, layout⟩

theorem indent_zero (layout : Layout) : (Layout.indent 0 layout).Interchangeable layout := by
  intro width column around rest
  rw [Queue.trace, Int.add_zero]

theorem indent_indent (outer inner : Int) (layout : Layout) :
    (Layout.indent outer (.indent inner layout)).Interchangeable
      (.indent (outer + inner) layout) := by
  intro width column around rest
  rw [Queue.trace, Queue.trace, Queue.trace, Int.add_assoc]

theorem indent_concat (amount : Int) (left right : Layout) :
    (Layout.indent amount (.concat left right)).Interchangeable
      (.concat (.indent amount left) (.indent amount right)) := by
  intro width column around rest
  have moved : ∀ column, Queue.trace width column (⟨around + amount, right⟩ :: rest) =
      Queue.trace width column (⟨around, .indent amount right⟩ :: rest) := by
    intro column
    rw [Queue.trace]
  simp only [Queue.trace]
  exact Queue.trace_behind moved column ⟨around + amount, left⟩

end Interchangeable

/-- Joins the layouts from the right. No layouts give the empty one. -/
def foldRight (join : Layout → Layout → Build Layout) : List Layout → Build Layout
  | [] => return .empty
  | [last] => return last
  | first :: next :: rest => do join first (← foldRight join (next :: rest))

/-- The join puts the middle layout between the other two, up to the nesting of the three. -/
def PutsBetween (middle : Layout) (join : Layout → Layout → Build Layout) : Prop :=
  ∀ left right, ∃ joined, (join left right).Gives joined ∧
    joined.Interchangeable (.concat left (.concat middle right))

/-- The layouts in a row, each of them behind the middle one. -/
def continued (middle : Layout) : List Layout → Layout
  | [] => .empty
  | next :: rest => .concat middle (.concat next (continued middle rest))

section

variable {middle : Layout} {join : Layout → Layout → Build Layout}

theorem joined_from_left
    (between : PutsBetween middle join)
    (start : Layout)
    (rest : List Layout) :
    ∃ joined,
      ((rest.map Item.node).foldlM
          (fun joined (item : Item) => do join joined (← item.toLayout)) start).Gives joined ∧
        joined.Interchangeable (.concat start (continued middle rest)) := by
  induction rest generalizing start with
  | nil => exact ⟨start, fun _ => rfl, (Interchangeable.concat_empty start).symm⟩
  | cons next rest ih =>
      obtain ⟨longer, given, longerAlike⟩ := between start next
      obtain ⟨joined, later, alike⟩ := ih longer
      refine ⟨joined, ?_, ?_⟩
      · rw [List.map_cons, List.foldlM_cons]
        exact Gives.bind given later
      · -- The fold nests the next layout with all before it; the row nests it with the rest.
        have regrouped :
            (Layout.concat longer (continued middle rest)).Interchangeable
              (.concat (.concat start (.concat middle next)) (continued middle rest)) :=
          longerAlike.concat (.refl _)
        apply (alike.trans regrouped).trans
        apply (Interchangeable.concat_concat start (.concat middle next) _).trans
        exact (Interchangeable.refl start).concat
          (Interchangeable.concat_concat middle next (continued middle rest))

theorem joined_from_right
    (between : PutsBetween middle join)
    (first : Layout)
    (rest : List Layout) :
    ∃ joined, (foldRight join (first :: rest)).Gives joined ∧
      joined.Interchangeable (.concat first (continued middle rest)) := by
  induction rest generalizing first with
  | nil => exact ⟨first, fun _ => rfl, (Interchangeable.concat_empty first).symm⟩
  | cons next rest ih =>
      obtain ⟨later, laterGiven, laterAlike⟩ := ih next
      obtain ⟨joined, given, alike⟩ := between first later
      refine ⟨joined, Gives.bind laterGiven given, alike.trans ?_⟩
      have behind := (Interchangeable.refl middle).concat laterAlike
      exact (Interchangeable.refl first).concat behind

/-- A join that puts something between two layouts can nest many of them either way. -/
theorem nestings_interchangeable
    (between : PutsBetween middle join)
    (layouts : List Layout) :
    ∃ left right, (fold join (layouts.map .node)).Gives left ∧
      (foldRight join layouts).Gives right ∧ left.Interchangeable right := by
  cases layouts with
  | nil => exact ⟨.empty, .empty, fun _ => rfl, fun _ => rfl, .refl _⟩
  | cons first rest =>
      obtain ⟨left, leftGiven, leftAlike⟩ := joined_from_left between first rest
      obtain ⟨right, rightGiven, rightAlike⟩ := joined_from_right between first rest
      exact ⟨left, right, leftGiven, rightGiven, leftAlike.trans rightAlike.symm⟩

end

theorem soft_join_puts_between : PutsBetween (.choice space .lineBreak) softJoin := by
  intro left right
  exact ⟨_, soft_join_gives left right, .refl _⟩

/-- The separator is nested with what stands before it, and the space with what follows. -/
theorem separated_join_puts_between (separator : String) :
    PutsBetween (.concat (.text separator) space) fun left right =>
      return spaceJoin (.concat left (.text separator)) right := by
  intro left right
  refine ⟨_, fun _ => rfl, ?_⟩
  apply (Interchangeable.concat_concat left (.text separator) (.concat space right)).trans
  exact (Interchangeable.refl left).concat
    (Interchangeable.concat_concat (.text separator) space right).symm

/-- In this context it makes no difference from which side the layouts are joined: the fold
joins them from the left. -/
def Context.NestsAlike
    (context : Context)
    (folded : List Item → Build Layout)
    (join : Layout → Layout → Build Layout) : Prop :=
  ∀ layouts : List Layout, ∃ left right, (folded (layouts.map .node)).Gives left ∧
    (foldRight join layouts).Gives right ∧ context.SeesAlike left right

theorem Context.nests_alike
    (context : Context)
    {middle : Layout}
    {join : Layout → Layout → Build Layout}
    (between : PutsBetween middle join) :
    context.NestsAlike (fold join) join := by
  intro layouts
  obtain ⟨left, right, leftGiven, rightGiven, same⟩ := nestings_interchangeable between layouts
  exact ⟨left, right, leftGiven, rightGiven, context.sees_alike same⟩

/-- In every context, at every width and from every column, the resolver delivers the same
however a sequence is nested, with the empty layout in a sequence or without it, with an
indentation by nothing or none, with two indentations or their sum, and with an indentation
around a sequence or around its parts. So what a fold joins from the left, with nothing, a
space, a break, a separator or a soft break between each two, can be joined from the right. -/
theorem sequences_regroup
    (context : Context)
    (first second third : Layout)
    (outer inner : Int) :
    context.SeesAlike (.concat (.concat first second) third)
      (.concat first (.concat second third)) ∧
    context.SeesAlike (.concat .empty first) first ∧
    context.SeesAlike (.concat first .empty) first ∧
    context.SeesAlike (.indent 0 first) first ∧
    context.SeesAlike (.indent outer (.indent inner first)) (.indent (outer + inner) first) ∧
    context.SeesAlike (.indent outer (.concat first second))
      (.concat (.indent outer first) (.indent outer second)) ∧
    context.NestsAlike (fold fun left right => return .concat left right)
      (fun left right => return .concat left right) ∧
    context.NestsAlike spread (fun left right => return spaceJoin left right) ∧
    context.NestsAlike stack (fun left right => return breakJoin left right) ∧
    (∀ separator, context.NestsAlike (separated separator)
      fun left right => return spaceJoin (.concat left (.text separator)) right) ∧
    context.NestsAlike (fold softJoin) softJoin := by
  have nothing : PutsBetween .empty fun left right => return .concat left right :=
    fun left right => ⟨_, fun _ => rfl, (Interchangeable.refl left).concat
      (Interchangeable.empty_concat right).symm⟩
  have spaces : PutsBetween space fun left right => return spaceJoin left right :=
    fun _ _ => ⟨_, fun _ => rfl, .refl _⟩
  have breaks : PutsBetween .lineBreak fun left right => return breakJoin left right :=
    fun _ _ => ⟨_, fun _ => rfl, .refl _⟩
  refine ⟨context.sees_alike (.concat_concat first second third),
    context.sees_alike (.empty_concat first),
    context.sees_alike (.concat_empty first),
    context.sees_alike (.indent_zero first),
    context.sees_alike (.indent_indent outer inner first),
    context.sees_alike (.indent_concat outer first second),
    context.nests_alike nothing, context.nests_alike spaces,
    context.nests_alike breaks, ?_,
    context.nests_alike soft_join_puts_between⟩
  intro separator
  exact context.nests_alike (separated_join_puts_between separator)

end Typeset.Layout

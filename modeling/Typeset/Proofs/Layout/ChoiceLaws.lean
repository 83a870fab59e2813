import Typeset.Proofs.Layout.Steady
import Typeset.Proofs.Resolution.Interchange

/-!
Laws of choices and groups. Choices can be regrouped, and what stands before or behind a
choice can be moved into its branches, as long as it has no break of its own in front. The
forks that are pending differ then, and so do the columns at which they were made, but not
what the line comes to. A group of a group offers the flat form twice and is the group
itself. All of this holds in every context: `choices_regroup`.
-/

set_option autoImplicit false

namespace Typeset

namespace Layout

open Build

namespace Interchangeable

theorem choice_self (layout : Layout) : (Layout.choice layout layout).Interchangeable layout := by
  intro width column around rest
  simp only [Queue.trace, ite_self]

theorem choice_choice (first second third : Layout) :
    (Layout.choice (.choice first second) third).Interchangeable
      (.choice first (.choice second third)) := by
  intro width column around rest
  simp only [Queue.trace]
  by_cases fitting :
      Token.fits (Queue.trace width column (⟨around, first⟩ :: rest)).tokens (width - column) = true
  · simp only [if_pos fitting]
  · simp only [if_neg fitting]

theorem concat_choice (first second later : Layout) :
    (Layout.concat (.choice first second) later).Interchangeable
      (.choice (.concat first later) (.concat second later)) := by
  intro width column around rest
  simp only [Queue.trace]

/-- The fork is made behind the text or before it, and the text is as long in both branches. -/
theorem text_choice (content : String) (first second : Layout) :
    (Layout.concat (.text content) (.choice first second)).Interchangeable
      (.choice (.concat (.text content) first) (.concat (.text content) second)) := by
  intro width column around rest
  have remaining : width - (column + content.length) = width - column - content.length := by
    omega
  simp only [Queue.trace, Delivery.behind, List.singleton_append, Token.fits_behind_text, remaining]
  split
  · rfl
  · rfl

theorem indent_choice (amount : Int) (first second : Layout) :
    (Layout.indent amount (.choice first second)).Interchangeable
      (.choice (.indent amount first) (.indent amount second)) := by
  intro width column around rest
  simp only [Queue.trace]

/-- A branch that was turned away is turned away again. -/
theorem choice_again (first second : Layout) :
    (Layout.choice first (.choice first second)).Interchangeable (.choice first second) :=
  (choice_choice first first second).symm.trans ((choice_self first).choice (.refl second))

end Interchangeable

theorem group_gives
    {layout flat : Layout}
    (clean : layout.Clean)
    (form : flatForm " " layout = .ok flat) :
    flat.Clean ∧ (group layout).Gives (.choice flat layout) :=
  group_with_gives clean form

/-- A group has a flat form of its own, which is the one that it offers already. -/
theorem group_of_group_gives (layout : Layout) (clean : layout.Clean) :
    ∃ flat, (group layout).Gives (.choice flat layout) ∧
      (group (.choice flat layout)).Gives (.choice flat (.choice flat layout)) := by
  obtain ⟨flat, form, _⟩ := flat_form_of_clean " " layout clean
  obtain ⟨flatClean, once⟩ := group_gives clean form
  have again : flatForm " " (.choice flat layout) = .ok flat :=
    flat_form_of_is_flat " " flat (is_flat_of_flat_form " " layout flat form)
  have grouped : (Layout.choice flat layout).Clean := ⟨flatClean, clean⟩
  exact ⟨flat, once, (group_gives grouped again).2⟩

/-- In every context, at every width and from every column, the resolver delivers the same
for a choice of one layout and that layout, for choices that are nested to the left and to
the right, for a choice with something behind it, before it or around it and the choice of
the branches with that, and for a group of a group and the group. -/
theorem choices_regroup
    (context : Context)
    (first second third : Layout)
    (content : String)
    (amount : Int) :
    context.SeesAlike (.choice first first) first ∧
    context.SeesAlike (.choice (.choice first second) third)
      (.choice first (.choice second third)) ∧
    context.SeesAlike (.concat (.choice first second) third)
      (.choice (.concat first third) (.concat second third)) ∧
    context.SeesAlike (.concat (.text content) (.choice first second))
      (.choice (.concat (.text content) first) (.concat (.text content) second)) ∧
    context.SeesAlike (.indent amount (.choice first second))
      (.choice (.indent amount first) (.indent amount second)) ∧
    (first.Clean → ∃ once twice, (group first).Gives once ∧ (group once).Gives twice ∧
      context.SeesAlike twice once) := by
  refine ⟨context.sees_alike (.choice_self first),
    context.sees_alike (.choice_choice first second third),
    context.sees_alike (.concat_choice first second third),
    context.sees_alike (.text_choice content first second),
    context.sees_alike (.indent_choice amount first second), ?_⟩
  intro clean
  obtain ⟨flat, once, twice⟩ := group_of_group_gives first clean
  exact ⟨_, _, once, twice, context.sees_alike (.choice_again flat first)⟩

/-- A longer text, or what fills the hole with one more text behind it. -/
def branchBefore (behind : String) : Context :=
  .secondaryOf (.text "abcd") (.leftOf .hole (.text behind))

/-- The longer text is given up, and then the flat form, which the text behind it makes too
wide, once or twice. -/
theorem group_of_group_in_branch :
    (breakJoin (.text "a") (.text "b")).Clean ∧
      ∃ once twice, (group (breakJoin (.text "a") (.text "b"))).Gives once ∧
        (group once).Gives twice ∧
        (((branchBefore "c").plug once).resolve 3 0).all =
          ⟨[.text "a", .line 0, .text "b", .text "c"], none⟩ ∧
        (((branchBefore "c").plug twice).resolve 3 0).all =
          ⟨[.text "a", .line 0, .text "b", .text "c"], none⟩ := by
  have clean : (breakJoin (.text "a") (.text "b")).Clean := by decide
  obtain ⟨_, _, _, _, _, groups⟩ :=
    choices_regroup (branchBefore "c") (breakJoin (.text "a") (.text "b")) .empty .empty "" 0
  obtain ⟨once, twice, given, givenAgain, alike⟩ := groups clean
  have offered : (group (breakJoin (.text "a") (.text "b"))).Gives
      (.choice (spaceJoin (.text "a") (.text "b")) (breakJoin (.text "a") (.text "b"))) :=
    (group_gives clean rfl).2
  have same := (given true).symm.trans (offered true)
  cases same
  have broken : (((branchBefore "c").plug (.choice (spaceJoin (.text "a") (.text "b"))
      (breakJoin (.text "a") (.text "b")))).resolve 3 0).all =
      ⟨[.text "a", .line 0, .text "b", .text "c"], none⟩ := by decide +kernel
  refine ⟨clean, _, twice, given, givenAgain, broken, ?_⟩
  rw [alike 3 0]
  exact broken

end Layout

end Typeset

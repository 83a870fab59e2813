import Typeset.Proofs.Layout.Choices
import Typeset.Proofs.Resolution.Squeezed

/-!
Widths that are wide enough. The preferred rendering of a layout takes the primary branch of every
choice. A width that none of its lines passes is enough for the resolver to deliver it, as every
primary branch fits where it is tried, and its lines are no wider than the texts and indentations
of the layout can make them: `resolve_wide`.
-/

set_option autoImplicit false

namespace Typeset

namespace Token

/-- The last line starts where the tokens before it end. -/
theorem line_widths_append (start : Int) (before after : List Token) :
    ∀ reach ∈ lineWidths start (before ++ after),
      reach ∈ lineWidths start before ∨ reach ∈ lineWidths (columnAfter start before) after := by
  induction before generalizing start with
  | nil => exact fun reach member => .inr member
  | cons token rest ih =>
      cases token with
      | text content => exact ih _
      | line indent =>
          intro reach member
          rcases List.mem_cons.mp member with rfl | later
          · exact .inl List.mem_cons_self
          · exact (ih indent reach later).imp_left (List.mem_cons_of_mem _)

theorem column_after_mem (start : Int) (tokens : List Token) :
    columnAfter start tokens ∈ lineWidths start tokens := by
  induction tokens generalizing start with
  | nil => exact List.mem_singleton_self start
  | cons token rest ih =>
      cases token with
      | text content => exact ih _
      | line indent => exact List.mem_cons_of_mem _ (ih indent)

end Token

namespace Layout

/-- The layout with the primary branch in the place of every choice. -/
def preferred : Layout → Layout
  | .empty => .empty
  | .lineBreak => .lineBreak
  | .text content => .text content
  | .indent amount child => .indent amount child.preferred
  | .concat left right => .concat left.preferred right.preferred
  | .choice primary _ => primary.preferred
  | .stray value => .stray value

/-- The tokens of the preferred rendering when its breaks are indented by `margin`. -/
def preferredTokens : Layout → (margin : Int) → List Token
  | .empty, _ | .stray _, _ => []
  | .lineBreak, margin => [.line margin]
  | .text content, _ => [.text content]
  | .indent amount child, margin => child.preferredTokens (margin + amount)
  | .concat left right, margin => left.preferredTokens margin ++ right.preferredTokens margin
  | .choice primary _, margin => primary.preferredTokens margin

/-- The columns of all texts in the layout together. -/
def textColumns : Layout → Nat
  | .empty | .lineBreak | .stray _ => 0
  | .text content => content.length
  | .indent _ child => child.textColumns
  | .concat left right | .choice left right => left.textColumns + right.textColumns

/-- The columns of all indentations to the right in the layout together. -/
def indentColumns : Layout → Nat
  | .empty | .lineBreak | .stray _ | .text _ => 0
  | .indent amount child => amount.toNat + child.indentColumns
  | .concat left right | .choice left right => left.indentColumns + right.indentColumns

theorem preferred_has_no_choice (layout : Layout) :
    layout.preferred.EveryChoice fun _ _ => False := by
  induction layout with
  | empty | lineBreak | text content | stray value => trivial
  | indent amount child ih => exact ih
  | concat left right leftStep rightStep => exact ⟨leftStep, rightStep⟩
  | choice primary secondary primaryStep _ => exact primaryStep

theorem preferred_clean (layout : Layout) (clean : layout.Clean) : layout.preferred.Clean := by
  induction layout with
  | empty | lineBreak | text content => trivial
  | indent amount child ih => exact ih clean
  | concat left right leftStep rightStep => exact ⟨leftStep clean.1, rightStep clean.2⟩
  | choice primary secondary primaryStep _ => exact primaryStep clean.1
  | stray value => exact clean

/-- Every line of the preferred rendering starts at the column or at an indentation, and its texts
are some of those of the layout. -/
theorem preferred_widths_le (layout : Layout) (margin start : Int) :
    ∀ reach ∈ Token.lineWidths start (layout.preferredTokens margin),
      reach ≤ max start (margin + layout.indentColumns) + layout.textColumns := by
  induction layout generalizing margin start with
  | empty | stray value =>
      simp only [preferredTokens, Token.lineWidths, textColumns, indentColumns,
        List.forall_mem_singleton]
      omega
  | lineBreak =>
      refine List.forall_mem_cons.mpr ⟨?_, List.forall_mem_singleton.mpr ?_⟩
      all_goals
        simp only [textColumns, indentColumns]
        omega
  | text content =>
      simp only [preferredTokens, Token.lineWidths, textColumns, indentColumns,
        List.forall_mem_singleton]
      omega
  | indent amount child ih =>
      intro reach member
      have inner := ih (margin + amount) start reach member
      simp only [textColumns, indentColumns]
      omega
  | concat left right leftStep rightStep =>
      intro reach member
      simp only [textColumns, indentColumns]
      rcases Token.line_widths_append start _ _ reach member with before | after
      · have first := leftStep margin start reach before
        omega
      · -- The right part goes on where the last line of the left one ends.
        have joint := leftStep margin start _ (Token.column_after_mem start _)
        have second := rightStep margin _ reach after
        omega
  | choice primary secondary primaryStep _ =>
      intro reach member
      have taken := primaryStep margin start reach member
      simp only [textColumns, indentColumns]
      omega

end Layout

namespace Queue

/-- The tokens of the preferred renderings of what waits. -/
def preferredTokens : Queue → List Token
  | [] => []
  | work :: rest => work.node.preferredTokens work.indent ++ preferredTokens rest

/-- Where every line of the preferred rendering has room, what follows a choice fits behind its
primary branch, so that branch is never turned away. -/
theorem greedy_of_room
    (width column : Int)
    (queue : Queue)
    (room : ∀ reach ∈ Token.lineWidths column (preferredTokens queue), reach ≤ width) :
    greedy width column queue = preferredTokens queue := by
  induction queue using work_induction generalizing column with
  | nil =>
      rw [greedy]
      rfl
  | empty indent rest ih =>
      rw [greedy]
      exact ih column room
  | text indent content rest ih =>
      rw [greedy, ih _ room]
      rfl
  | lineBreak indent rest ih =>
      rw [greedy, ih indent (List.forall_mem_cons.mp room).2]
      rfl
  | indent indent amount child rest ih =>
      rw [greedy]
      exact ih column room
  | concat indent left right rest ih =>
      have parts : preferredTokens (⟨indent, .concat left right⟩ :: rest) =
          preferredTokens (⟨indent, left⟩ :: ⟨indent, right⟩ :: rest) := by
        simp only [preferredTokens, Layout.preferredTokens, List.append_assoc]
      rw [parts] at room ⊢
      rw [greedy, ih column room]
  | choice indent primary secondary rest primaryStep _ =>
      have whole := primaryStep column room
      simp only [greedy, whole]
      exact if_pos (Token.fits_of_widths_le room)
  | stray indent value rest ih =>
      rw [greedy]
      exact ih column room

/-- Without choices a layout is written in the one way that there is. -/
theorem greedy_of_preferred
    (width column indent : Int)
    (layout : Layout)
    (rest : Queue) :
    greedy width column (⟨indent, layout.preferred⟩ :: rest) =
      layout.preferredTokens indent ++
        greedy width (Token.columnAfter column (layout.preferredTokens indent)) rest := by
  induction layout generalizing column indent rest with
  | empty | lineBreak | text content | stray value =>
      rw [Layout.preferred, greedy]
      rfl
  | indent amount child ih =>
      rw [Layout.preferred, greedy]
      exact ih column (indent + amount) rest
  | concat left right leftStep rightStep =>
      rw [Layout.preferred, greedy, leftStep, rightStep, Layout.preferredTokens,
        Token.column_after_append, List.append_assoc]
  | choice primary secondary primaryStep _ => exact primaryStep column indent rest

end Queue

namespace Layout

/-- The preferred rendering has no choices, so it is delivered at every width and from every
column. From a column it is also what is delivered of the layout itself, at every width that has
room for that column, for all texts and for all indentations to the right together. -/
theorem resolve_wide (layout : Layout) (clean : layout.Clean) (column : Int) :
    layout.preferred.EveryChoice (fun _ _ => False) ∧
      (∀ width start,
        (layout.preferred.resolve width start).all = ⟨layout.preferredTokens 0, none⟩) ∧
      ∀ width, max column 0 + layout.textColumns + layout.indentColumns ≤ width →
        (layout.resolve width column).all = ⟨layout.preferredTokens 0, none⟩ := by
  refine ⟨layout.preferred_has_no_choice, ?_, ?_⟩
  · intro width start
    have single := Queue.clean_singleton 0 (layout.preferred_clean clean)
    rw [resolve, Queue.resolve_all_eq width start _ single, Queue.greedy_of_preferred,
      Queue.greedy, List.append_nil]
  · intro width enough
    have alone : Queue.preferredTokens [⟨0, layout⟩] = layout.preferredTokens 0 :=
      List.append_nil _
    have room : ∀ reach ∈ Token.lineWidths column (Queue.preferredTokens [⟨0, layout⟩]),
        reach ≤ width := by
      intro reach member
      rw [alone] at member
      have within := layout.preferred_widths_le 0 column reach member
      omega
    rw [resolve, Queue.resolve_all_eq width column _ (Queue.clean_singleton 0 clean),
      Queue.greedy_of_room width column _ room, alone]

/-- A line that is indented by two columns, and the look ahead on it. -/
def indentedLookAhead : Layout := .indent 2 (.concat (.text "a") (.concat .lineBreak lookAhead))

theorem indented_look_ahead_wide :
    indentedLookAhead.Clean ∧
      max (5 : Int) 0 + indentedLookAhead.textColumns + indentedLookAhead.indentColumns ≤ 14 ∧
      (indentedLookAhead.resolve 14 5).all =
        ⟨[.text "a", .line 2, .text "a", .text " ", .text "bc", .text "d"], none⟩ := by
  have clean : indentedLookAhead.Clean := by decide
  have enough : max (5 : Int) 0 + indentedLookAhead.textColumns +
      indentedLookAhead.indentColumns ≤ 14 := by decide
  obtain ⟨_, _, wide⟩ := resolve_wide indentedLookAhead clean 5
  exact ⟨clean, enough, wide 14 enough⟩

end Layout

end Typeset

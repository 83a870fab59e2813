import Typeset.Layout.Build
import Typeset.Proofs.Layout.FlatText
import Typeset.Proofs.Resolution.Described
import Typeset.Proofs.Token.Written

/-!
Layouts that end a line. Where nothing or a break follows, what follows takes no columns, so a
layout is written as if it stood alone: its text depends on its indentation and on the column
at which it starts, and a group is on one line exactly if its single-line text fits there:
`Writes.group`. Parts that are parted by breaks are decided one by one: `Writes.break_join`.
-/

set_option autoImplicit false

namespace Typeset

/-- The spaces at the start of a line. An indentation below zero counts as zero. -/
def margin (indent : Int) : String := String.ofList (List.replicate indent.toNat ' ')

theorem Token.chunk_line (indent : Int) : chunk (.line indent) = "\n" ++ margin indent := rfl

theorem Token.length_render (tokens : List Token) (unbroken : Unbroken tokens) :
    (render tokens).length = textLength tokens := by
  induction tokens with
  | nil => rfl
  | cons token rest ih =>
      cases token with
      | text content =>
          rw [render_cons, String.length_append, ih unbroken]
          rfl
      | line indent => exact unbroken.elim

/-- Whatever the column is, the queue is resolved to these tokens, and no text stands before
their first break. -/
structure Queue.EndsLine (width : Int) (queue : Queue) (later : List Token) : Prop where
  tokens : ∀ column, Queue.greedy width column queue = later
  parted : Token.firstLength later = 0

namespace Queue

variable {width : Int} {rest : Queue} {later : List Token}

theorem ends_line_nil (width : Int) : EndsLine width [] [] where
  tokens column := by rw [greedy]
  parted := rfl

theorem ends_line_break (width indent : Int) (rest : Queue) :
    EndsLine width (⟨indent, .lineBreak⟩ :: rest) (.line indent :: greedy width indent rest) where
  tokens column := by rw [greedy]
  parted := rfl

theorem EndsLine.concat
    {indent : Int}
    {left right : Layout}
    (ends : EndsLine width (⟨indent, left⟩ :: ⟨indent, right⟩ :: rest) later) :
    EndsLine width (⟨indent, .concat left right⟩ :: rest) later where
  tokens column := by rw [greedy, ends.tokens column]
  parted := ends.parted

/-- The end of a line takes no columns, so a queue before it is written as if it stood alone. -/
theorem greedy_before_end
    (ends : EndsLine width rest later)
    (column : Int)
    (queue : Queue) :
    greedy width column (queue ++ rest) = greedy width column queue ++ later := by
  induction queue using work_induction generalizing column with
  | nil => rw [List.nil_append, ends.tokens, greedy, List.nil_append]
  | text indent content queue ih => rw [List.cons_append, greedy, greedy, ih, List.cons_append]
  | lineBreak indent queue ih => rw [List.cons_append, greedy, greedy, ih, List.cons_append]
  | choice indent primary secondary queue primaryStep secondaryStep =>
      have first := primaryStep column
      have second := secondaryStep column
      rw [List.cons_append] at first second ⊢
      simp only [greedy, first, second, Token.fits_before_end ends.parted]
      split
      · rfl
      · rfl
  | empty indent queue ih => rw [List.cons_append, greedy, greedy, ih]
  | indent indent amount child queue ih =>
      rw [List.cons_append, greedy, greedy]
      exact ih column
  | concat indent left right queue ih =>
      rw [List.cons_append, greedy, greedy]
      exact ih column
  | stray indent value queue ih => rw [List.cons_append, greedy, greedy, ih]

end Queue

namespace Layout

/-- At the end of a line, the layout is written as `text` of its indentation and of the column
at which it starts. -/
def Writes (width : Int) (layout : Layout) (text : (indent column : Int) → String) : Prop :=
  ∀ indent column rest later, Queue.EndsLine width rest later →
    ∃ tokens, Token.render tokens = text indent column ∧
      Queue.greedy width column (⟨indent, layout⟩ :: rest) = tokens ++ later

/-- A layout of texts alone is written as its single-line text wherever it stands. -/
theorem greedy_of_is_flat (separator : String) (layout : Layout) (flat : layout.isFlat = true) :
    ∃ tokens, Token.Unbroken tokens ∧ flatText separator layout = .ok (Token.render tokens) ∧
      ∀ width column indent rest, Queue.greedy width column (⟨indent, layout⟩ :: rest) =
        tokens ++ Queue.greedy width (column + Token.textLength tokens) rest := by
  induction layout with
  | empty =>
      refine ⟨[], trivial, flat_text_empty, ?_⟩
      intro width column indent rest
      simp [Queue.greedy, Token.textLength]
  | text content =>
      refine ⟨[.text content], trivial, ?_, ?_⟩
      · rw [flat_text_text, Token.render_cons]
        simp [Token.chunk, Token.render]
      · intro width column indent rest
        simp [Queue.greedy, Token.textLength]
  | concat left right leftStep rightStep =>
      simp only [isFlat, Bool.and_eq_true] at flat
      obtain ⟨before, beforeLine, beforeText, beforeWhole⟩ := leftStep flat.1
      obtain ⟨after, afterLine, afterText, afterWhole⟩ := rightStep flat.2
      refine ⟨before ++ after, (Token.unbroken_append _ _).mpr ⟨beforeLine, afterLine⟩, ?_, ?_⟩
      · rw [flat_text_concat, beforeText, afterText, Token.render_append]
        rfl
      · intro width column indent rest
        rw [Queue.greedy, beforeWhole, afterWhole, Token.text_length_append, List.append_assoc,
          Int.add_assoc, Int.natCast_add]
  | lineBreak => cases flat
  | indent amount child => cases flat
  | choice primary secondary => cases flat
  | stray value => cases flat

/-- At the end of a line a group is the texts of its single-line form if they fit there, and else
it is written as if it were no group. -/
theorem greedy_group
    {flat : Layout}
    {line : String}
    (isFlat : flat.isFlat = true)
    (lineText : flatText " " flat = .ok line) :
    ∃ tokens, Token.Unbroken tokens ∧ Token.render tokens = line ∧
      ∀ (width column indent : Int) (layout : Layout) {rest : Queue} {later : List Token},
        Queue.EndsLine width rest later →
          Queue.greedy width column (⟨indent, .choice flat layout⟩ :: rest) =
            if column + line.length ≤ width then tokens ++ later
            else Queue.greedy width column (⟨indent, layout⟩ :: rest) := by
  obtain ⟨tokens, unbroken, found, written⟩ := greedy_of_is_flat " " flat isFlat
  obtain rfl := Except.ok.inj (lineText.symm.trans found)
  refine ⟨tokens, unbroken, rfl, ?_⟩
  intro width column indent layout rest later ends
  have offered := written width column indent rest
  rw [ends.tokens] at offered
  have fitting : Token.fits (tokens ++ later) (width - column) = true ↔
      column + (Token.render tokens).length ≤ width := by
    rw [Token.fits_iff, Token.first_length_append _ _ unbroken, ends.parted,
      Token.length_render _ unbroken]
    omega
  simp only [Queue.greedy, offered, fitting]

namespace Writes

variable {width : Int}

theorem text (content : String) : Writes width (.text content) fun _ _ => content := by
  intro indent column rest later ends
  refine ⟨[.text content], ?_, ?_⟩
  · simp [Token.render, Token.chunk]
  · rw [Queue.greedy, ends.tokens]
    rfl

/-- A layout that is not looked into is written as it is when it stands alone. -/
theorem alone (width : Int) (layout : Layout) :
    Writes width layout fun indent column =>
      Token.render (Queue.greedy width column [⟨indent, layout⟩]) := by
  intro indent column rest later ends
  exact ⟨_, rfl, Queue.greedy_before_end ends column [⟨indent, layout⟩]⟩

/-- A group is on one line if its single-line text fits, whatever stands on the next lines. -/
theorem group
    {flat layout : Layout}
    {line : String}
    {text : (indent column : Int) → String}
    (isFlat : flat.isFlat = true)
    (lineText : flatText " " flat = .ok line)
    (writes : Writes width layout text) :
    Writes width (.choice flat layout) fun indent column =>
      if column + line.length ≤ width then line else text indent column := by
  intro indent column rest later ends
  obtain ⟨tokens, _, whole, decided⟩ := greedy_group isFlat lineText
  rw [decided width column indent layout ends]
  by_cases fits : column + line.length ≤ width
  · simp only [if_pos fits]
    exact ⟨tokens, whole, rfl⟩
  · simp only [if_neg fits]
    exact writes indent column rest later ends

/-- A text stands before the layout, which starts where it ends. -/
theorem behind_text
    {layout : Layout}
    {text : (indent column : Int) → String}
    (head : String)
    (writes : Writes width layout text) :
    Writes width (.concat (.text head) layout) fun indent column =>
      head ++ text indent (column + head.length) := by
  intro indent column rest later ends
  obtain ⟨tokens, written, whole⟩ := writes indent (column + head.length) rest later ends
  refine ⟨.text head :: tokens, ?_, ?_⟩
  · rw [Token.render_cons, written]
    rfl
  · rw [Queue.greedy, Queue.greedy, whole]
    rfl

/-- An indented layout stands on a line of its own. -/
theorem below
    {layout : Layout}
    {text : (indent column : Int) → String}
    (amount : Int)
    (writes : Writes width layout text) :
    Writes width (.indent amount (.concat .lineBreak layout)) fun indent _ =>
      "\n" ++ margin (indent + amount) ++ text (indent + amount) (indent + amount) := by
  intro indent column rest later ends
  obtain ⟨tokens, written, whole⟩ := writes (indent + amount) (indent + amount) rest later ends
  refine ⟨.line (indent + amount) :: tokens, ?_, ?_⟩
  · rw [Token.render_cons, Token.chunk_line, written]
  · simp only [Queue.greedy, whole]
    rfl

/-- What follows a break starts at the column of its indentation. -/
theorem break_join
    {left right : Layout}
    {before after : (indent column : Int) → String}
    (first : Writes width left before)
    (second : Writes width right after) :
    Writes width (breakJoin left right) fun indent column =>
      before indent column ++ "\n" ++ margin indent ++ after indent indent := by
  intro indent column rest later ends
  obtain ⟨rightTokens, rightText, rightWhole⟩ := second indent indent rest later ends
  have broken := (Queue.ends_line_break width indent (⟨indent, right⟩ :: rest)).concat
  rw [rightWhole] at broken
  obtain ⟨leftTokens, leftText, leftWhole⟩ := first indent column _ _ broken
  refine ⟨leftTokens ++ .line indent :: rightTokens, ?_, ?_⟩
  · rw [Token.render_append, Token.render_cons, Token.chunk_line, leftText, rightText]
    simp only [String.append_assoc]
  · rw [breakJoin, Queue.greedy, leftWhole]
    simp

/-- An indented block begins on a line of its own. -/
theorem block
    {body : Layout}
    {text : (indent column : Int) → String}
    (head : String)
    (amount : Int)
    (writes : Writes width body text) :
    Writes width (.concat (.text head) (.indent amount (.concat .lineBreak body)))
      fun indent _ => head ++ "\n" ++ margin (indent + amount) ++
        text (indent + amount) (indent + amount) := by
  have written := (writes.below amount).behind_text head
  simpa only [String.append_assoc] using written

/-- A layout that stands alone ends the last line. -/
theorem pretty
    {layout : Layout}
    {text : (indent column : Int) → String}
    (writes : Writes width layout text)
    (clean : layout.Clean)
    (column : Int) :
    layout.pretty width column = .ok (text 0 column) := by
  obtain ⟨tokens, written, whole⟩ := writes 0 column [] [] (Queue.ends_line_nil width)
  rw [← written]
  apply pretty_of_all
  rw [resolve, Queue.resolve_all_eq width column _ (Queue.clean_singleton 0 clean), whole,
    List.append_nil]

end Writes

end Layout

end Typeset

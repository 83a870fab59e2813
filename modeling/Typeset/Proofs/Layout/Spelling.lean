import Typeset.Proofs.Layout.FlatText
import Typeset.Proofs.Resolution.Described
import Typeset.Proofs.Text.Reading
import Typeset.Proofs.Token.Written

/-!
The texts that a layout may be written as. A choice stands for either of its branches, and a
break for any gap: a line break with its indentation, or the space that it is flattened to.
What the resolver delivers is such a text, and so is the single-line form with spaces.
-/

set_option autoImplicit false

namespace Typeset

theorem Token.gap_chunk_line (indent : Int) : Text.Gap (chunk (.line indent)).toList := by
  simp only [chunk, String.toList_append, String.toList_ofList]
  refine ⟨by simp, ?_⟩
  intro c member
  rcases List.mem_append.mp member with newline | space
  · rw [List.mem_singleton.mp newline]
    rfl
  · rw [List.eq_of_mem_replicate space]
    rfl

namespace Layout

/-- The layout may be written as the text. -/
inductive Spells : Layout → List Char → Prop where
  | empty : Spells .empty []
  | lineBreak {gap : List Char} : Text.Gap gap → Spells .lineBreak gap
  | text (content : String) : Spells (.text content) content.toList
  | indent {amount : Int} {child : Layout} {text : List Char} :
      Spells child text → Spells (.indent amount child) text
  | concat {left right : Layout} {before after : List Char} :
      Spells left before → Spells right after → Spells (.concat left right) (before ++ after)
  | primary {primary secondary : Layout} {text : List Char} :
      Spells primary text → Spells (.choice primary secondary) text
  | secondary {primary secondary : Layout} {text : List Char} :
      Spells secondary text → Spells (.choice primary secondary) text

theorem Describes.spells
    {indent : Int}
    {layout : Layout}
    {tokens : List Token}
    (described : layout.Describes indent tokens) :
    layout.Spells (Token.render tokens).toList := by
  induction described with
  | empty indent => exact .empty
  | lineBreak indent =>
      rw [Token.render_cons, String.toList_append]
      simpa [Token.render] using Spells.lineBreak (Token.gap_chunk_line indent)
  | text indent content =>
      rw [Token.render_cons, String.toList_append]
      simpa [Token.render, Token.chunk] using Spells.text content
  | indent described ih => exact .indent ih
  | concat leftPart rightPart leftStep rightStep =>
      rw [Token.render_append, String.toList_append]
      exact .concat leftStep rightStep
  | primary described ih => exact .primary ih
  | secondary described ih => exact .secondary ih

/-- What the resolver delivers is one of the texts of the layout. -/
theorem pretty_spells
    (layout : Layout)
    (clean : layout.Clean)
    (width column : Int) :
    ∃ text, layout.pretty width column = .ok text ∧ layout.Spells text.toList := by
  obtain ⟨tokens, delivered, described⟩ := layout.resolve_described clean width column
  exact ⟨Token.render tokens, pretty_of_all delivered, described.spells⟩

/-- A text of the flat form is a text of the layout: breaks that become spaces are gaps. -/
theorem spells_of_flat_form
    {layout flat : Layout}
    {text : List Char}
    (form : flatForm " " layout = .ok flat)
    (spells : flat.Spells text) :
    layout.Spells text := by
  induction layout generalizing flat text with
  | empty =>
      cases form
      exact spells
  | text content =>
      cases form
      exact spells
  | stray value => cases form
  | lineBreak =>
      cases form
      cases spells
      exact .lineBreak Text.gap_space
  | indent amount child ih => exact .indent (ih form spells)
  | choice primary secondary primaryStep _ => exact .primary (primaryStep form spells)
  | concat left right leftStep rightStep =>
      obtain ⟨flatLeft, leftForm, form⟩ := bind_eq_ok.mp form
      obtain ⟨flatRight, rightForm, form⟩ := bind_eq_ok.mp form
      cases form
      cases spells with
      | concat leftPart rightPart =>
          exact .concat (leftStep leftForm leftPart) (rightStep rightForm rightPart)

end Layout

end Typeset

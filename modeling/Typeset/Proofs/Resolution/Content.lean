import Typeset.Proofs.Layout.Choices
import Typeset.Proofs.Resolution.Described
import Typeset.Proofs.Token.Written

/-!
Rendering keeps the content. When both branches of every choice have one single-line text,
every rendering has that text too, once its breaks are written like the separator. This
holds of all that a view shows: `Describes.seen_flat`. The resolver delivers a rendering, so
no width loses, doubles or moves any text: `resolve_keeps_content`.
-/

set_option autoImplicit false

namespace Typeset.Layout

theorem seen_flat_whole (separator : String) (layout : Layout) :
    seenFlat .whole separator layout = flatText separator layout :=
  id_map _

section

variable (view : Text.View) (lineText : Int → String) (separator : String)
variable (breaks : ∀ indent, view.seen (lineText indent) = view.seen separator)

include breaks

/-- Which branch of a choice was taken cannot be seen, so the induction on the rendering
may follow either. -/
theorem Describes.seen_flat
    {indent : Int}
    {layout : Layout}
    {tokens : List Token}
    (described : layout.Describes indent tokens)
    (alike : layout.EveryChoice (LookAlike view separator)) :
    seenFlat view separator layout = .ok (view.seen (Token.written lineText tokens)) := by
  induction described with
  | empty indent =>
      rw [seenFlat, flat_text_empty]
      rfl
  | lineBreak indent =>
      rw [seenFlat, flat_text_line_break]
      simp only [Token.written, String.append_empty, breaks]
      rfl
  | text indent content =>
      rw [seenFlat, flat_text_text]
      simp only [Token.written, String.append_empty]
      rfl
  | indent described ih =>
      rw [seenFlat, flat_text_indent]
      exact ih alike
  | concat leftPart rightPart leftStep rightStep =>
      rw [seen_flat_concat, leftStep alike.1, rightStep alike.2, Token.written_append,
        view.seen_append]
      rfl
  | primary described ih =>
      rw [seenFlat, flat_text_choice]
      exact ih alike.2.1
  | secondary described ih =>
      rw [seenFlat, flat_text_choice]
      exact alike.1.trans (ih alike.2.2)

/-- The resolver delivers all of a layout, and a view shows of it what it shows of the
single-line text. -/
theorem seen_of_resolve
    (layout : Layout)
    (clean : layout.Clean)
    (alike : layout.EveryChoice (LookAlike view separator))
    (width column : Int) :
    ∃ tokens, (layout.resolve width column).all = ⟨tokens, none⟩ ∧
      seenFlat view separator layout = .ok (view.seen (Token.written lineText tokens)) := by
  obtain ⟨tokens, delivered, described⟩ := layout.resolve_described clean width column
  exact ⟨tokens, delivered, described.seen_flat view lineText separator breaks alike⟩

end

/-- When both branches of every choice have the same single-line text under a separator,
the tokens of the layout, with the separator for every break, are its single-line text. -/
theorem resolve_keeps_content
    (separator : String)
    (layout : Layout)
    (clean : layout.Clean)
    (agree : layout.EveryChoice fun primary secondary =>
      flatText separator primary = flatText separator secondary)
    (width column : Int) :
    ∃ tokens, (layout.resolve width column).all = ⟨tokens, none⟩ ∧
      flatText separator layout = .ok (Token.written (fun _ => separator) tokens) := by
  have alike : layout.EveryChoice (LookAlike .whole separator) := by
    apply agree.mono
    intro primary secondary same
    rw [LookAlike, seen_flat_whole, seen_flat_whole, same]
  have seen := seen_of_resolve .whole (fun _ => separator) separator (fun _ => rfl) layout
    clean alike width column
  rw [seen_flat_whole] at seen
  exact seen

/-- Two words that share a line or not, and a choice of that inside either way. -/
def twoWords : Layout :=
  .choice (.text "a b") (.concat (.text "a") (.concat (.choice (.text " ") .lineBreak) (.text "b")))

theorem two_words_keep_content :
    twoWords.Clean ∧
      twoWords.EveryChoice (fun primary secondary =>
        flatText " " primary = flatText " " secondary) ∧
      ∃ tokens, (twoWords.resolve 2 0).all = ⟨tokens, none⟩ ∧
        flatText " " twoWords = .ok (Token.written (fun _ => " ") tokens) := by
  have clean : twoWords.Clean := by decide
  have agree : twoWords.EveryChoice fun primary secondary =>
      flatText " " primary = flatText " " secondary := by
    refine ⟨?_, trivial, trivial, ⟨?_, trivial, trivial⟩, trivial⟩
    · simp only [flatText, writeFlat]
      rfl
    · simp only [flatText, writeFlat]
  exact ⟨clean, agree, resolve_keeps_content " " twoWords clean agree 2 0⟩

end Typeset.Layout

import Typeset.Proofs.Resolution.LineEnd

/-!
Single-line forms are final. A flattened layout is made of texts alone, so flattening it once
more changes nothing, whatever the separator is, and the resolver has nothing left to decide:
at every width and from every column it delivers the same texts, and they make up the
single-line text of the layout that was flattened: `flattened_is_final`.
-/

set_option autoImplicit false

namespace Typeset

namespace Token

theorem texts_of_unbroken (tokens : List Token) (unbroken : Unbroken tokens) :
    ∃ contents : List String, tokens = contents.map .text := by
  induction tokens with
  | nil => exact ⟨[], rfl⟩
  | cons token rest ih =>
      cases token with
      | text content =>
          obtain ⟨contents, rfl⟩ := ih unbroken
          exact ⟨content :: contents, rfl⟩
      | line indent => exact unbroken.elim

theorem render_texts (contents : List String) :
    render (contents.map .text) = String.join contents := by
  rw [← join_chunks, List.map_map]
  exact congrArg String.join (List.map_id contents)

end Token

namespace Layout

theorem clean_of_is_flat (layout : Layout) (flat : layout.isFlat = true) : layout.Clean := by
  induction layout with
  | empty => trivial
  | text content => trivial
  | concat left right leftStep rightStep =>
      simp only [isFlat, Bool.and_eq_true] at flat
      exact ⟨leftStep flat.1, rightStep flat.2⟩
  | lineBreak => cases flat
  | indent amount child => cases flat
  | choice primary secondary => cases flat
  | stray value => cases flat

/-- Neither the width nor the column makes a difference to a layout of texts alone. -/
theorem resolve_of_is_flat (layout : Layout) (flat : layout.isFlat = true) :
    ∃ contents : List String,
      (∀ separator, flatText separator layout = .ok (String.join contents)) ∧
      ∀ width column, (layout.resolve width column).all = ⟨contents.map .text, none⟩ := by
  obtain ⟨tokens, unbroken, _, written⟩ := greedy_of_is_flat " " layout flat
  obtain ⟨contents, rfl⟩ := Token.texts_of_unbroken tokens unbroken
  refine ⟨contents, ?_, ?_⟩
  · intro separator
    obtain ⟨others, _, text, same⟩ := greedy_of_is_flat separator layout flat
    -- Both token lists are what the recursion writes for the layout.
    have alone := (written 0 0 0 []).symm.trans (same 0 0 0 [])
    simp only [Queue.greedy, List.append_nil] at alone
    rw [text, ← alone, Token.render_texts]
  · intro width column
    have single := Queue.clean_singleton 0 (clean_of_is_flat layout flat)
    rw [resolve, Queue.resolve_all_eq width column _ single, written, Queue.greedy,
      List.append_nil]

/-- A flattened layout has no breaks, indentations or choices. Flattening it with any separator
gives it back, its single-line text is that of the layout that was flattened, and at every
width and from every column it is resolved to the same texts, which make up that text. -/
theorem flattened_is_final (separator : String) (layout : Layout) (clean : layout.Clean) :
    ∃ flat contents,
      flattenWith separator layout = .ok flat ∧
      flat.isFlat = true ∧
      flatText separator layout = .ok (String.join contents) ∧
      (∀ other, flattenWith other flat = .ok flat) ∧
      (∀ other, flatText other flat = .ok (String.join contents)) ∧
      ∀ width column, (flat.resolve width column).all = ⟨contents.map .text, none⟩ ∧
        flat.pretty width column = .ok (String.join contents) := by
  obtain ⟨flat, form, _, sameText⟩ := flat_form_of_clean separator layout clean
  have texts := is_flat_of_flat_form separator layout flat form
  obtain ⟨contents, text, delivered⟩ := resolve_of_is_flat flat texts
  refine ⟨flat, contents, ?_, texts, ?_, ?_, text, ?_⟩
  · rw [flattenWith_eq, form]
  · rw [← sameText separator, text]
  · intro other
    rw [flattenWith_eq, flat_form_of_is_flat other flat texts]
  · intro width column
    refine ⟨delivered width column, ?_⟩
    rw [pretty_of_all (delivered width column), Token.render_texts]

/-- A choice whose branches disagree, and behind it a group that was flattened with another
separator. -/
def disagreeing : Layout :=
  .concat (.choice (.text "a") (.concat (.text "b") .lineBreak))
    (.indent 3 (.concat .lineBreak (.choice (.concat (.text "c") (.text ",")) .lineBreak)))

theorem disagreeing_flattened :
    disagreeing.Clean ∧ ∃ flat,
      flattenWith ";" disagreeing = .ok flat ∧
      flattenWith "!" flat = .ok flat ∧
      flatText ";" disagreeing = .ok "a;c," ∧
      flatText "!" flat = .ok "a;c," ∧
      (flat.resolve 0 7).all = ⟨[.text "a", .text ";", .text "c", .text ","], none⟩ := by
  have clean : disagreeing.Clean := by decide
  obtain ⟨flat, contents, flattened, _, text, again, flatTexts, resolved⟩ :=
    flattened_is_final ";" disagreeing clean
  have found : flattenWith ";" disagreeing =
      .ok (.concat (.text "a") (.concat (.text ";") (.concat (.text "c") (.text ",")))) := by
    rw [flattenWith_eq]
    rfl
  obtain rfl := Except.ok.inj (found.symm.trans flattened)
  have written : flatText ";" disagreeing = .ok "a;c," := by
    simp only [disagreeing, flatText, writeFlat]
    rfl
  have joined := Except.ok.inj (written.symm.trans text)
  refine ⟨clean, _, found, again "!", written, ?_, ?_⟩
  · rw [flatTexts, ← joined]
  · have shown : (Layout.resolve (.concat (.text "a") (.concat (.text ";")
        (.concat (.text "c") (.text ",")))) 0 0).all =
        ⟨[.text "a", .text ";", .text "c", .text ","], none⟩ := by decide +kernel
    rw [(resolved 0 7).1, ← (resolved 0 0).1, shown]

end Layout

end Typeset

import Typeset.Proofs.CSource.Lexer
import Typeset.Proofs.Layout.Steady

/-!
String literals of C. The value is escaped by two replacements one after the other, of the
backslashes first and then of the quotes, and the literal is read back up to its last character:
`literal_reads_back`.
-/

set_option autoImplicit false

namespace Typeset.CSource

open Build

/-- The text with every occurrence of a character replaced. -/
def replaced (old : Char) (new text : List Char) : List Char :=
  text.flatMap fun c => if c = old then new else [c]

/-- The second replacement leaves the backslashes of the first one alone, as it is about quotes
only. -/
theorem escaped_by_replacements (value : List Char) :
    value.flatMap escapedChar = replaced '"' ['\\', '"'] (replaced '\\' ['\\', '\\'] value) := by
  rw [replaced, replaced, List.flatMap_assoc]
  congr 1
  funext c
  by_cases backslash : c = '\\'
  · subst backslash
    rfl
  by_cases quote : c = '"'
  · subst quote
    rfl
  · rw [escapedChar, if_neg (not_or.mpr ⟨backslash, quote⟩), if_neg backslash,
      List.flatMap_singleton, if_neg quote]

/-- In the other order the backslash before a quote is escaped as well, and the literal ends too
early. -/
example : unquote (replaced '\\' ['\\', '\\'] (replaced '"' ['\\', '"'] ['"', 'a']) ++ ['"']) =
    some (['\\'], ['a', '"']) := by decide

/-- What is read once is read in the same way when more follows. -/
theorem unquote_append
    {text value rest : List Char}
    (read : unquote text = some (value, rest))
    (more : List Char) :
    unquote (text ++ more) = some (value, rest ++ more) := by
  fun_induction unquote text generalizing value with
  | case1 => cases read
  | case2 others =>
      cases read
      rfl
  | case3 c others ih =>
      obtain ⟨⟨inner, later⟩, found, same⟩ := Option.map_eq_some_iff.mp read
      cases same
      rw [List.cons_append, List.cons_append, unquote, ih found]
      rfl
  | case4 c others quote escape ih =>
      obtain ⟨⟨inner, later⟩, found, same⟩ := Option.map_eq_some_iff.mp read
      cases same
      have plain : c ≠ '\\' := by
        rintro rfl
        cases others with
        | nil => cases found
        | cons next further => exact escape next further rfl rfl
      rw [List.cons_append, unquote, ih found]
      · rfl
      · exact quote
      · intro _ _ same _
        exact plain same

/-- Whatever is cut off at the end, nothing shorter is a literal. -/
theorem unquote_of_shorter
    {text value : List Char}
    (read : unquote text = some (value, []))
    {shorter missing : List Char}
    (whole : shorter ++ missing = text)
    (cut : missing ≠ []) :
    unquote shorter = none := by
  cases early : unquote shorter with
  | none => rfl
  | some ended =>
      have longer := unquote_append early missing
      rw [whole, read] at longer
      have nothing : ended.2 ++ missing = [] := (Prod.ext_iff.mp (Option.some.inj longer)).2.symm
      exact absurd (List.append_eq_nil_iff.mp nothing).2 cut

/-- The literal of a value stands between two quotes, and its inside is the value with the
backslashes and then the quotes escaped. Behind the opening quote the value is read back, the last
character is the quote that ends the literal, and a scan that has not come to it has not found the
end. -/
theorem literal_reads_back (value : String) :
    ∃ inside : List Char,
      (Expr.str value).layout.Gives (.text (String.ofList ('"' :: inside ++ ['"']))) ∧
      inside = replaced '"' ['\\', '"'] (replaced '\\' ['\\', '\\'] value.toList) ∧
      unquote (inside ++ ['"']) = some (value.toList, []) ∧
      ∀ shorter, shorter <+: inside → unquote shorter = none := by
  have read := unquote_escaped value.toList []
  refine ⟨value.toList.flatMap escapedChar, fun _ => rfl, escaped_by_replacements _, read, ?_⟩
  rintro shorter ⟨missing, whole⟩
  have cut : missing ++ ['"'] ≠ [] := List.append_ne_nil_of_right_ne_nil _ (List.cons_ne_nil _ _)
  refine unquote_of_shorter read ?_ cut
  rw [← List.append_assoc, whole]

end Typeset.CSource

import Typeset.Token.Basic

/-!
Tokens written down with a text of one's choice for the line breaks. Rendering is the case
in which a break becomes a line break and its indentation.
-/

set_option autoImplicit false

namespace Typeset.Token

/-- The texts of the tokens in a row, a break being written as `lineText` of its
indentation. -/
def written (lineText : Int → String) : List Token → String
  | [] => ""
  | .text content :: rest => content ++ written lineText rest
  | .line indent :: rest => lineText indent ++ written lineText rest

theorem written_append (lineText : Int → String) (before after : List Token) :
    written lineText (before ++ after) = written lineText before ++ written lineText after := by
  induction before with
  | nil => simp [written]
  | cons token rest ih =>
      cases token with
      | text content => simp only [List.cons_append, written, ih, String.append_assoc]
      | line indent => simp only [List.cons_append, written, ih, String.append_assoc]

theorem render_eq_written (tokens : List Token) :
    render tokens = written (fun indent => chunk (.line indent)) tokens := by
  have behind (earlier : String) :
      tokens.foldl (fun written token => written ++ token.chunk) earlier =
        earlier ++ written (fun indent => chunk (.line indent)) tokens := by
    induction tokens generalizing earlier with
    | nil => simp [written]
    | cons token rest ih =>
        rw [List.foldl_cons, ih, String.append_assoc]
        cases token <;> rfl
  rw [render, behind, String.empty_append]

theorem render_append (before after : List Token) :
    render (before ++ after) = render before ++ render after := by
  rw [render_eq_written, render_eq_written, render_eq_written, written_append]

theorem render_cons (token : Token) (rest : List Token) :
    render (token :: rest) = token.chunk ++ render rest := by
  rw [← List.singleton_append, render_append]
  simp [render]

theorem join_chunks (tokens : List Token) : String.join (tokens.map chunk) = render tokens := by
  rw [String.join, render, List.foldl_map]

end Typeset.Token

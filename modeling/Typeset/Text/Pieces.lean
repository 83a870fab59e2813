/-!
The pieces of a text between the occurrences of a separator. There is always one piece
more than there are separators, so an empty text has one empty piece.
-/

set_option autoImplicit false

namespace Typeset.Text

/-- Puts a character before the first piece, or ends a piece in front of it. -/
def extendPieces (separator c : Char) (pieces : List (List Char)) : List (List Char) :=
  if c = separator then [] :: pieces
  else match pieces with
    | [] => [[c]]
    | first :: others => (c :: first) :: others

def piecesList (separator : Char) (text : List Char) : List (List Char) :=
  text.foldr (extendPieces separator) [[]]

def pieces (separator : Char) (text : String) : List String :=
  (piecesList separator text.toList).map String.ofList

/-- Text without separators belongs to one piece, up to the separator that follows. -/
theorem pieces_list_append
    (separator : Char)
    (before after : List Char)
    (single : separator ∉ before) :
    piecesList separator (before ++ separator :: after) =
      before :: piecesList separator after := by
  induction before with
  | nil => simp [piecesList, extendPieces]
  | cons c rest ih =>
      have different : c ≠ separator := fun same => single (by simp [same])
      have later := ih fun member => single (by simp [member])
      simp only [piecesList] at later
      simp [piecesList, extendPieces, different, later]

theorem pieces_list_single
    (separator : Char)
    (text : List Char)
    (single : separator ∉ text) :
    piecesList separator text = [text] := by
  induction text with
  | nil => rfl
  | cons c rest ih =>
      have different : c ≠ separator := fun same => single (by simp [same])
      have later := ih fun member => single (by simp [member])
      simp only [piecesList] at later
      simp [piecesList, extendPieces, different, later]

end Typeset.Text

import Typeset.Token.Basic

/-!
How far tokens reach. The columns that their texts take are added up, and a break starts
counting anew at its indentation. Whether a first line fits depends on its columns alone:
`fits_iff`.
-/

set_option autoImplicit false

namespace Typeset.Token

def textLength : List Token → Nat
  | [] => 0
  | .text content :: rest => content.length + textLength rest
  | .line _ :: rest => textLength rest

/-- The columns that the texts before the first line break take. -/
def firstLength : List Token → Nat
  | [] => 0
  | .text content :: rest => content.length + firstLength rest
  | .line _ :: _ => 0

/-- The column after the tokens when the first of them stands at `column`. -/
def columnAfter (column : Int) : List Token → Int
  | [] => column
  | .text content :: rest => columnAfter (column + content.length) rest
  | .line indent :: rest => columnAfter indent rest

def Unbroken : List Token → Prop
  | [] => True
  | .text _ :: rest => Unbroken rest
  | .line _ :: _ => False

/-- The tokens belong to one line. It may end with a break. -/
def OneLine : List Token → Prop
  | [] => True
  | .text _ :: rest => OneLine rest
  | .line _ :: rest => rest = []

theorem text_length_append (before after : List Token) :
    textLength (before ++ after) = textLength before + textLength after := by
  induction before with
  | nil => simp [textLength]
  | cons token rest ih =>
      cases token with
      | text content =>
          simp only [List.cons_append, textLength, ih]
          omega
      | line indent => simpa only [List.cons_append, textLength] using ih

theorem column_after_append (column : Int) (before after : List Token) :
    columnAfter column (before ++ after) = columnAfter (columnAfter column before) after := by
  induction before generalizing column with
  | nil => rfl
  | cons token rest ih =>
      cases token with
      | text content => exact ih _
      | line indent => exact ih _

theorem unbroken_append (before after : List Token) :
    Unbroken (before ++ after) ↔ Unbroken before ∧ Unbroken after := by
  induction before with
  | nil => simp [Unbroken]
  | cons token rest ih =>
      cases token with
      | text content => simpa only [List.cons_append, Unbroken] using ih
      | line indent => simp [Unbroken]

theorem column_after_unbroken
    (column : Int)
    (tokens : List Token)
    (unbroken : Unbroken tokens) :
    columnAfter column tokens = column + textLength tokens := by
  induction tokens generalizing column with
  | nil => simp [columnAfter, textLength]
  | cons token rest ih =>
      cases token with
      | text content =>
          rw [columnAfter, ih _ unbroken, textLength]
          omega
      | line indent => exact unbroken.elim

theorem one_line_append
    (before after : List Token)
    (unbroken : Unbroken before)
    (single : OneLine after) :
    OneLine (before ++ after) := by
  induction before with
  | nil => exact single
  | cons token rest ih =>
      cases token with
      | text content => exact ih unbroken
      | line indent => exact unbroken.elim

theorem one_line_of_unbroken (tokens : List Token) (unbroken : Unbroken tokens) :
    OneLine tokens := by
  simpa using one_line_append tokens [] unbroken trivial

theorem one_line_suffix
    (before after : List Token)
    (single : OneLine (before ++ after)) :
    OneLine after := by
  induction before with
  | nil => exact single
  | cons token rest ih =>
      cases token with
      | text content => exact ih single
      | line indent =>
          have none := List.append_eq_nil_iff.mp (show rest ++ after = [] from single)
          rw [none.2]
          trivial

theorem first_length_of_one_line (tokens : List Token) (single : OneLine tokens) :
    firstLength tokens = textLength tokens := by
  induction tokens with
  | nil => rfl
  | cons token rest ih =>
      cases token with
      | text content => rw [firstLength, textLength, ih single]
      | line indent =>
          have last : rest = [] := single
          simp [firstLength, textLength, last]

/-- The first line fits exactly if its columns are there. A negative number of columns is
too few for any line, the empty one included. -/
theorem fits_iff (tokens : List Token) (remaining : Int) :
    fits tokens remaining = true ↔ (firstLength tokens : Int) ≤ remaining := by
  induction tokens generalizing remaining with
  | nil => simp [fits, firstLength]
  | cons token rest ih =>
      cases token with
      | text content =>
          simp only [fits, firstLength]
          split
          · simp only [Bool.false_eq_true, false_iff]
            omega
          · rw [ih]
            omega
      | line indent =>
          simp only [fits, firstLength]
          split <;> simp <;> omega

/-- A text leaves less of the line for what follows it. -/
theorem fits_behind_text (content : String) (later : List Token) (remaining : Int) :
    fits (.text content :: later) remaining =
      fits later (remaining - content.length) := by
  rw [Bool.eq_iff_iff, fits_iff, fits_iff, firstLength]
  omega

theorem first_length_append (before after : List Token) (unbroken : Unbroken before) :
    firstLength (before ++ after) = textLength before + firstLength after := by
  induction before with
  | nil => simp [textLength]
  | cons token rest ih =>
      cases token with
      | text content =>
          simp only [List.cons_append, firstLength, textLength, ih unbroken]
          omega
      | line indent => exact unbroken.elim

/-- What starts with a break, or is nothing, takes no columns of the line before it. -/
theorem first_length_before_end
    {later : List Token}
    (parted : firstLength later = 0)
    (tokens : List Token) :
    firstLength (tokens ++ later) = firstLength tokens := by
  induction tokens with
  | nil => exact parted
  | cons token rest ih =>
      cases token with
      | text content => simp only [List.cons_append, firstLength, ih]
      | line indent => rfl

theorem fits_before_end
    {later : List Token}
    (parted : firstLength later = 0)
    (tokens : List Token)
    (remaining : Int) :
    fits (tokens ++ later) remaining = fits tokens remaining := by
  rw [Bool.eq_iff_iff, fits_iff, fits_iff, first_length_before_end parted]

/-- A break fits wherever the end of the tokens does. -/
theorem fits_before_break (before after : List Token) (indent remaining : Int) :
    fits (before ++ .line indent :: after) remaining = fits before remaining :=
  fits_before_end rfl before remaining

end Typeset.Token

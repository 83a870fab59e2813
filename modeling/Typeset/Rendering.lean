import Typeset.Text.Pieces

/-!
The rendered text of a document, with what it was laid out for. Lines that are wider
than asked for are numbered from one. The first line has less room when some of its
columns were taken before.
-/

set_option autoImplicit false

namespace Typeset

structure Rendering where
  text : String
  formatter : String
  width : Int
  column : Int
  deriving DecidableEq, Repr

namespace Rendering

def lines (rendering : Rendering) : List String := Text.pieces '\n' rendering.text

/-- The columns that a line may take. -/
def room (rendering : Rendering) (number : Nat) : Int :=
  if number = 1 then rendering.width - rendering.column else rendering.width

/-- The numbers of the lines that take more columns than they may. -/
def overflowingLines (rendering : Rendering) : List Nat :=
  ((rendering.lines.zipIdx 1).filter fun entry =>
    rendering.room entry.2 < entry.1.length).map Prod.snd

def hasOverflow (rendering : Rendering) : Bool := !rendering.overflowingLines.isEmpty

theorem mem_overflowing_lines (rendering : Rendering) (number : Nat) :
    number ∈ rendering.overflowingLines ↔
      1 ≤ number ∧ ∃ line, rendering.lines[number - 1]? = some line ∧
        rendering.room number < line.length := by
  simp only [overflowingLines, List.mem_map, List.mem_filter, decide_eq_true_eq, Prod.exists,
    exists_eq_right, List.mem_zipIdx_iff_le_and_getElem?_sub]
  constructor
  · rintro ⟨line, ⟨positive, found⟩, wide⟩
    exact ⟨positive, line, found, wide⟩
  · rintro ⟨positive, line, found, wide⟩
    exact ⟨line, ⟨positive, found⟩, wide⟩

end Rendering

end Typeset

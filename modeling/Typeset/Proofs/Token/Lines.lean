import Typeset.Proofs.Resolution.LineEnd
import Typeset.Proofs.Resolution.Squeezed
import Typeset.Rendering

/-!
The lines of a rendered text. Where no text holds a line break of its own, the lines between the
breaks of the rendered text are those of the tokens: `pieces_render`. Where no break is indented
by less than nothing, they are as long as the tokens reach, so tokens that stay within a width
are rendered without an overflowing line: `no_overflow_of_within`.
-/

set_option autoImplicit false

namespace Typeset

namespace Token

/-- The rendered lines of the tokens, when the first line has been started already. -/
def linesFrom (started : String) : List Token → List String
  | [] => [started]
  | .text content :: rest => linesFrom (started ++ content) rest
  | .line indent :: rest => started :: linesFrom (margin indent) rest

def lines (tokens : List Token) : List String := linesFrom "" tokens

/-- The lines stay within the width when `column` columns of the first one are taken already. -/
def LinesWithin (width column : Int) : List String → Prop
  | [] => True
  | first :: others => column + first.length ≤ width ∧ ∀ line ∈ others, line.length ≤ width

theorem length_margin {indent : Int} (nonneg : 0 ≤ indent) :
    ((margin indent).length : Int) = indent := by
  simp only [margin, String.length_ofList, List.length_replicate]
  exact Int.toNat_of_nonneg nonneg

theorem line_break_not_mem_margin (indent : Int) : '\n' ∉ (margin indent).toList := by
  simp [margin, List.mem_replicate]

theorem LinesWithin.all
    {width : Int}
    {lines : List String}
    (within : LinesWithin width 0 lines) :
    ∀ line ∈ lines, (line.length : Int) ≤ width := by
  cases lines with
  | nil => simp
  | cons first others =>
      obtain ⟨head, tail⟩ := within
      rw [Int.zero_add] at head
      exact List.forall_mem_cons.mpr ⟨head, tail⟩

/-- No line is longer than its tokens reach, if no break is indented by less than nothing. -/
theorem lines_within
    {width start : Int}
    (started : String)
    {tokens : List Token}
    (within : ∀ reach ∈ lineWidths start tokens, reach ≤ width)
    (nonneg : ∀ indent, .line indent ∈ tokens → 0 ≤ indent) :
    LinesWithin width (start - started.length) (linesFrom started tokens) := by
  induction tokens generalizing start started with
  | nil =>
      have reached := within start (by simp [lineWidths])
      refine ⟨?_, by simp⟩
      omega
  | cons token rest ih =>
      have later (indent : Int) (member : .line indent ∈ rest) : 0 ≤ indent :=
        nonneg indent (List.mem_cons_of_mem token member)
      cases token with
      | text content =>
          have whole := ih (started ++ content) within later
          rw [String.length_append] at whole
          have same : start + content.length - ((started.length + content.length : Nat) : Int) =
              start - started.length := by omega
          rw [same] at whole
          exact whole
      | line indent =>
          obtain ⟨reached, others⟩ := List.forall_mem_cons.mp within
          have fromMargin := ih (margin indent) others later
          rw [length_margin (nonneg indent List.mem_cons_self), Int.sub_self] at fromMargin
          refine ⟨?_, fromMargin.all⟩
          omega

theorem pieces_render
    {started : String}
    {tokens : List Token}
    (single : '\n' ∉ started.toList)
    (texts : ∀ content, .text content ∈ tokens → '\n' ∉ content.toList) :
    Text.pieces '\n' (started ++ render tokens) = linesFrom started tokens := by
  induction tokens generalizing started with
  | nil =>
      have alone := Text.pieces_list_single '\n' started.toList single
      simp [Text.pieces, render, linesFrom, alone]
  | cons token rest ih =>
      have later (content : String) (member : .text content ∈ rest) : '\n' ∉ content.toList :=
        texts content (List.mem_cons_of_mem token member)
      cases token with
      | text content =>
          have here := texts content List.mem_cons_self
          have longer : '\n' ∉ (started ++ content).toList := by
            simp [String.toList_append, single, here]
          rw [render_cons, chunk, ← String.append_assoc, ih longer later, linesFrom]
      | line indent =>
          have parted := Text.pieces_list_append '\n' started.toList
            (margin indent ++ render rest).toList single
          have fromMargin := ih (line_break_not_mem_margin indent) later
          rw [render_cons, chunk_line, linesFrom, ← fromMargin]
          simp only [Text.pieces, String.toList_append] at parted ⊢
          simp [parted]

end Token

namespace Rendering

/-- The numbers of overflowing lines are counted from one, and only the first line has less
room. -/
theorem no_overflow_of_within
    (rendering : Rendering)
    (within : Token.LinesWithin rendering.width rendering.column rendering.lines) :
    rendering.hasOverflow = false := by
  have none : rendering.overflowingLines = [] := by
    rw [List.eq_nil_iff_forall_not_mem]
    intro number member
    obtain ⟨positive, line, found, wide⟩ := (rendering.mem_overflowing_lines number).mp member
    cases given : rendering.lines with
    | nil =>
        rw [given] at found
        cases found
    | cons first others =>
        rw [given] at within found
        by_cases leading : number = 1
        · subst leading
          cases found
          have room := within.1
          simp only [Rendering.room, if_true] at wide
          omega
        · have behind : number - 1 = number - 2 + 1 := by omega
          rw [behind, List.getElem?_cons_succ] at found
          have room := within.2 line (List.mem_of_getElem? found)
          simp only [Rendering.room, if_neg leading] at wide
          omega
  rw [hasOverflow, none]
  rfl

end Rendering

end Typeset

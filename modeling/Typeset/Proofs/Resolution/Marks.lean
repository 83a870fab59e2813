import Mathlib.Logic.Relation
import Typeset.Proofs.Resolution.Lines

/-!
Forks as marks in one list of tokens. A fork that is put up notes how many tokens the line has,
and the way back to it cuts the list there. Turn by turn this is what a line in the making does
with the tokens that each fork keeps for itself: `MarkedLine.turn_marked`. In every line that is
reached the marks and the columns of the forks never decrease towards the innermost one, and
what stands behind a mark is as wide as the columns that the line has taken since then. So all
forks have one verdict on the line, `MarkedLine.Measured.fits_from_eq`, and the innermost one
speaks for all of them: `OpenLine.forks_agree`.
-/

set_option autoImplicit false

namespace Typeset

/-- A fork with the number of tokens that its line had when it was put up. -/
structure MarkedFork where
  column : Int
  indent : Int
  secondary : Layout
  rest : Queue
  mark : Nat

/-- A line in the making with all its tokens in one list, the oldest first. The innermost fork
is the first one. -/
structure MarkedLine where
  column : Int
  queue : Queue
  tokens : List Token
  forks : List MarkedFork

/-- In the middle of a turn the line goes on, or it is at its end and is to be settled. -/
inductive MarkedLine.Halfway where
  | goesOn (line : MarkedLine)
  | atEnd (line : MarkedLine)

/-- After a turn the line goes on, or it is finished. -/
inductive MarkedLine.Turn where
  | more (line : MarkedLine)
  | finished (line : Line)

namespace MarkedLine

def close (line : MarkedLine) : Line where
  tokens := line.tokens
  column := line.column
  rest := line.queue

/-- Whether what was written since the fork fits there. -/
def fitsFrom (width : Int) (line : MarkedLine) (fork : MarkedFork) : Bool :=
  Token.fits (line.tokens.drop fork.mark) (width - fork.column)

/-- The line has run past the width while a fork is pending. -/
def isCut (width : Int) (line : MarkedLine) : Bool :=
  !line.forks.isEmpty && width < line.column

/-- The line is final, or it is cut at the mark of the innermost fork, which takes its
secondary branch. -/
def settle (width : Int) (line : MarkedLine) : Turn :=
  match line.forks with
  | [] => .finished line.close
  | fork :: forks =>
      if line.fitsFrom width fork then .finished line.close
      else .more
        { column := fork.column
          queue := ⟨fork.indent, fork.secondary⟩ :: fork.rest
          tokens := line.tokens.take fork.mark
          forks := forks }

/-- The line as it is before it is settled or goes on. Its end is that of the queue, a column
beyond the width while a fork is pending, or a break. -/
def advance (width : Int) (line : MarkedLine) : Except LayoutFault Halfway :=
  match line.queue with
  | [] => .ok (.atEnd line)
  | ⟨indent, node⟩ :: rest =>
      if line.isCut width then .ok (.atEnd line)
      else match node with
        | .empty => .ok (.goesOn { line with queue := rest })
        | .text content =>
            .ok (.goesOn
              { line with
                column := line.column + content.length
                queue := rest
                tokens := line.tokens ++ [.text content] })
        | .lineBreak =>
            .ok (.atEnd
              { line with
                column := indent
                queue := rest
                tokens := line.tokens ++ [.line indent] })
        | .indent amount child =>
            .ok (.goesOn { line with queue := ⟨indent + amount, child⟩ :: rest })
        | .concat left right =>
            .ok (.goesOn { line with queue := ⟨indent, left⟩ :: ⟨indent, right⟩ :: rest })
        | .choice primary secondary =>
            .ok (.goesOn
              { line with
                queue := ⟨indent, primary⟩ :: rest
                forks :=
                  ⟨line.column, indent, secondary, rest, line.tokens.length⟩ :: line.forks })
        | .stray value => .error (.stray value)

def turn (width : Int) (line : MarkedLine) : Except LayoutFault Turn :=
  (line.advance width).map fun
    | .goesOn next => .more next
    | .atEnd last => last.settle width

/-- The forks stand in the order in which they were put up, within the tokens of the line. -/
structure Stacked (line : MarkedLine) : Prop where
  marks : line.forks.Pairwise fun inner outer => outer.mark ≤ inner.mark
  within : ∀ fork ∈ line.forks, fork.mark ≤ line.tokens.length
  columns : line.forks.Pairwise fun inner outer => outer.column ≤ inner.column

/-- The line has no break, and it has come as far since each fork as the texts behind its mark
are long. -/
structure Measured (line : MarkedLine) : Prop extends Stacked line where
  unbroken : Token.Unbroken line.tokens
  widths : ∀ fork ∈ line.forks,
    line.column - fork.column = Token.textLength (line.tokens.drop fork.mark)

/-- A line that fits from its innermost fork fits from all forks around that one. -/
def InnermostDecides (width : Int) (line : MarkedLine) : Prop :=
  ∀ inner outers, line.forks = inner :: outers → line.fitsFrom width inner = true →
    ∀ outer ∈ outers, line.fitsFrom width outer = true

end MarkedLine

/-- The forks with their marks instead of the tokens between them. -/
def Fork.marked : List Fork → List MarkedFork
  | [] => []
  | fork :: forks =>
      ⟨fork.column, fork.indent, fork.secondary, fork.rest, (earlier (fork :: forks)).length⟩ ::
        marked forks

/-- The line with all its tokens in one list. -/
def OpenLine.marked (line : OpenLine) : MarkedLine where
  column := line.column
  queue := line.queue
  tokens := line.allTokens
  forks := Fork.marked line.forks

def LineStep.marked : LineStep → MarkedLine.Turn
  | .more line => .more line.marked
  | .finished line => .finished line

/-- What the steps of a line lead to from its start. -/
def OpenLine.Reached (width column : Int) (queue : Queue) : OpenLine → Prop :=
  Relation.ReflTransGen (fun line next => line.step width = .ok (.more next))
    (OpenLine.start column queue)

namespace Fork

/-- What stands before a mark is an early part of the line, and the fork stands behind it. -/
theorem before_mark
    {start : Int}
    {forks : List Fork}
    (placed : Placed start forks)
    {fork : MarkedFork}
    (pending : fork ∈ marked forks) :
    ∃ before since, earlier forks = before ++ since ∧ fork.mark = before.length ∧
      fork.column = start + Token.textLength before := by
  induction forks with
  | nil => cases pending
  | cons inner outers ih =>
      rcases List.mem_cons.mp pending with rfl | among
      · exact ⟨_, [], (List.append_nil _).symm, rfl, placed.1⟩
      · obtain ⟨before, since, whole, mark, column⟩ := ih placed.2.2 among
        refine ⟨before, since ++ inner.before.reverse, ?_, mark, column⟩
        rw [earlier_cons, whole, List.append_assoc]

theorem pairwise_marked
    {start : Int}
    {forks : List Fork}
    (placed : Placed start forks) :
    (marked forks).Pairwise fun inner outer =>
      outer.mark ≤ inner.mark ∧ outer.column ≤ inner.column := by
  induction forks with
  | nil => exact .nil
  | cons fork forks ih =>
      refine .cons ?_ (ih placed.2.2)
      intro outer pending
      obtain ⟨before, since, whole, mark, column⟩ := before_mark placed.2.2 pending
      have here := placed.1
      rw [earlier_cons, whole, List.append_assoc, Token.text_length_append] at here
      constructor
      · rw [mark, earlier_cons, whole, List.append_assoc, List.length_append]
        exact Nat.le_add_right _ _
      · simp only [column, here]
        omega

end Fork

namespace MarkedLine

variable {width : Int} {line last : MarkedLine}

/-- Every fork asks the same of the line: that it has not run past the width. -/
theorem Measured.fits_from_eq
    (measured : line.Measured)
    {fork : MarkedFork}
    (pending : fork ∈ line.forks) :
    line.fitsFrom width fork = decide (line.column ≤ width) := by
  have since := measured.widths fork pending
  have unbroken : Token.Unbroken (line.tokens.drop fork.mark) := by
    have whole := measured.unbroken
    rw [← List.take_append_drop fork.mark line.tokens, Token.unbroken_append] at whole
    exact whole.2
  rw [Bool.eq_iff_iff, fitsFrom, Token.fits_iff,
    Token.first_length_of_one_line _ (Token.one_line_of_unbroken _ unbroken), decide_eq_true_eq]
  omega

theorem innermost_decides
    {verdict : Bool}
    (alike : ∀ fork ∈ line.forks, line.fitsFrom width fork = verdict) :
    line.InnermostDecides width := by
  intro inner outers pending fitting outer among
  rw [pending] at alike
  rw [alike outer (List.mem_cons_of_mem inner among), ← fitting]
  exact (alike inner List.mem_cons_self).symm

theorem at_end_of_advance (ended : line.advance width = .ok (.atEnd last)) :
    last = line ∨ ∃ indent rest, last =
      { line with column := indent, queue := rest, tokens := line.tokens ++ [.line indent] } := by
  unfold advance at ended
  split at ended
  · cases ended
    exact .inl rfl
  · split at ended
    · cases ended
      exact .inl rfl
    · rename_i indent node rest waiting whole
      cases node with
      | lineBreak =>
          cases ended
          exact .inr ⟨indent, rest, rfl⟩
      | empty => cases ended
      | text content => cases ended
      | indent amount child => cases ended
      | concat left right => cases ended
      | choice primary secondary => cases ended
      | stray value => cases ended

/-- At the end of the line, with a break there or not, the forks stand and say the same. -/
theorem Measured.at_end
    (measured : line.Measured)
    (ended : line.advance width = .ok (.atEnd last)) :
    last.Stacked ∧
      ∀ fork ∈ last.forks, last.fitsFrom width fork = decide (line.column ≤ width) := by
  rcases at_end_of_advance ended with rfl | ⟨indent, rest, rfl⟩
  · exact ⟨measured.toStacked, fun fork pending => measured.fits_from_eq pending⟩
  · refine ⟨⟨measured.marks, ?_, measured.columns⟩, ?_⟩
    · intro fork pending
      have within := measured.within fork pending
      simp only [List.length_append]
      omega
    · intro fork pending
      rw [← measured.fits_from_eq pending, fitsFrom,
        List.drop_append_of_le_length (measured.within fork pending), Token.fits_before_break,
        fitsFrom]

end MarkedLine

namespace OpenLine

variable {width start : Int}

theorem marked_settle (width : Int) (line : OpenLine) :
    line.marked.settle width = (line.settle width).marked := by
  have whole := all_tokens_eq line
  unfold MarkedLine.settle settle
  cases pending : line.forks with
  | nil =>
      simp only [marked, pending, Fork.marked]
      rfl
  | cons fork forks =>
      rw [pending] at whole
      have since : line.marked.tokens.drop (Fork.earlier (fork :: forks)).length =
          line.tokens.reverse := by
        rw [marked, whole, List.drop_left]
      have before : line.marked.tokens.take (Fork.earlier (fork :: forks)).length =
          Fork.earlier (fork :: forks) := by
        rw [marked, whole, List.take_left]
      have judged : line.marked.forks = Fork.marked (fork :: forks) := by rw [marked, pending]
      simp only [judged, Fork.marked, MarkedLine.fitsFrom, since, before]
      split
      · rfl
      · simp only [LineStep.marked, marked, all_tokens_eq, Fork.earlier_cons]

theorem is_cut_marked (width : Int) (line : OpenLine) :
    line.marked.isCut width = line.isCut width := by
  cases pending : line.forks <;>
    simp [MarkedLine.isCut, marked, Fork.marked, isCut, pending]

/-- A turn of the line with marks is a step of the line. -/
theorem turn_marked (width : Int) (line : OpenLine) :
    line.marked.turn width = (line.step width).map LineStep.marked := by
  have settled := marked_settle width line
  have same : line.marked.queue = line.queue := rfl
  unfold MarkedLine.turn MarkedLine.advance step
  cases waiting : line.queue with
  | nil =>
      simp only [same, waiting]
      exact congrArg Except.ok settled
  | cons work rest =>
      obtain ⟨indent, node⟩ := work
      simp only [same, waiting, is_cut_marked]
      split
      · exact congrArg Except.ok settled
      · cases node with
        | empty => rfl
        | text content => simp [take, Except.map, LineStep.marked, marked, allTokens]
        | lineBreak =>
            have broken := marked_settle width
              { line with
                column := indent
                queue := rest
                tokens := .line indent :: line.tokens }
            simp only [take, Except.map, ← broken]
            simp [marked, allTokens]
        | indent amount child => rfl
        | concat left right => rfl
        | choice primary secondary =>
            simp only [take, Except.map, LineStep.marked, marked, Fork.marked, Fork.earlier_cons,
              all_tokens_eq]
            simp
        | stray value => rfl

/-- What stands behind a mark is all that the line has written since then. -/
theorem Placed.before_mark
    {line : OpenLine}
    (placed : line.Placed start)
    {fork : MarkedFork}
    (pending : fork ∈ line.marked.forks) :
    ∃ before since, line.marked.tokens = before ++ since ∧ fork.mark = before.length ∧
      fork.column = start + Token.textLength before := by
  obtain ⟨before, since, earlier, mark, column⟩ := Fork.before_mark placed.forks pending
  refine ⟨before, since ++ line.tokens.reverse, ?_, mark, column⟩
  rw [marked, all_tokens_eq, earlier, List.append_assoc]

theorem Placed.measured
    {line : OpenLine}
    (placed : line.Placed start) :
    line.marked.Measured := by
  have ordered := Fork.pairwise_marked placed.forks
  refine ⟨⟨ordered.imp And.left, ?_, ordered.imp And.right⟩, placed.unbroken, ?_⟩
  · intro fork pending
    obtain ⟨before, since, whole, mark, _⟩ := placed.before_mark pending
    rw [whole, mark, List.length_append]
    exact Nat.le_add_right _ _
  · intro fork pending
    obtain ⟨before, since, whole, mark, column⟩ := placed.before_mark pending
    have reached : line.marked.column = start + Token.textLength line.marked.tokens :=
      placed.column
    rw [whole, Token.text_length_append] at reached
    rw [whole, mark, List.drop_left, reached, column]
    omega

theorem Reached.placed
    {column : Int}
    {queue : Queue}
    {line : OpenLine}
    (reached : Reached width column queue line) :
    line.Placed column := by
  induction reached with
  | refl => exact start_placed column queue
  | tail _ stepped ih => exact (step_keeps ih _ stepped).1

theorem advance_of_cut {line : OpenLine} (cut : line.isCut width = true) :
    line.marked.advance width = .ok (.atEnd line.marked) := by
  rw [← is_cut_marked] at cut
  unfold MarkedLine.advance
  split
  · rfl
  · exact if_pos cut

/-- The turns of a line whose forks are marks are its steps. In every line that they lead to the
forks stand in order, the line has come as far since each of them as its texts are long, and it
has no break. So if it fits from the innermost fork, it fits from all of them, also with a break
at its end, and when it is cut, it fits from none. -/
theorem forks_agree (width column : Int) (queue : Queue) :
    (OpenLine.start column queue).marked = ⟨column, queue, [], []⟩ ∧
      (∀ line : OpenLine, line.marked.turn width = (line.step width).map LineStep.marked) ∧
      ∀ line, Reached width column queue line →
        line.marked.Measured ∧ line.marked.InnermostDecides width ∧
          (line.isCut width = true →
            line.marked.advance width = .ok (.atEnd line.marked) ∧
              ∀ fork ∈ line.marked.forks, line.marked.fitsFrom width fork = false) ∧
          ∀ last, line.marked.advance width = .ok (.atEnd last) →
            last.Stacked ∧ last.InnermostDecides width := by
  refine ⟨rfl, turn_marked width, ?_⟩
  intro line reached
  have measured := reached.placed.measured
  refine ⟨measured, ?_, ?_, ?_⟩
  · exact MarkedLine.innermost_decides fun fork pending => measured.fits_from_eq pending
  · intro cut
    refine ⟨advance_of_cut cut, ?_⟩
    intro fork pending
    simp only [isCut, Bool.and_eq_true, decide_eq_true_eq] at cut
    rw [measured.fits_from_eq pending]
    exact decide_eq_false (Int.not_le.mpr cut.2)
  · intro last ended
    obtain ⟨stacked, verdict⟩ := measured.at_end ended
    exact ⟨stacked, MarkedLine.innermost_decides verdict⟩

/-- Three texts in four columns, with a fork behind each of the first two. -/
def lookAheadForks : OpenLine where
  column := 4
  queue := [⟨-1, .text "d"⟩]
  tokens := [.text "bc"]
  forks :=
    [⟨2, -1, .text "b", [⟨-1, .text "d"⟩], [.text " "]⟩,
      ⟨1, -1, .lineBreak, [⟨-1, .concat (.choice (.text "bc") (.text "b")) (.text "d")⟩],
        [.text "a"]⟩]

/-- In three columns the line is cut, and it fits from neither fork. In four columns it fits
from the inner one and so from the outer one. -/
theorem look_ahead_forks_agree :
    lookAheadForks.marked.forks.map MarkedFork.mark = [2, 1] ∧
      (Reached 3 0 [⟨-1, .lookAhead⟩] lookAheadForks ∧ lookAheadForks.isCut 3 = true ∧
        ∀ fork ∈ lookAheadForks.marked.forks, lookAheadForks.marked.fitsFrom 3 fork = false) ∧
      Reached 4 0 [⟨-1, .lookAhead⟩] lookAheadForks ∧
        ∀ inner outers, lookAheadForks.marked.forks = inner :: outers →
          lookAheadForks.marked.fitsFrom 4 inner = true ∧
            ∀ outer ∈ outers, lookAheadForks.marked.fitsFrom 4 outer = true := by
  have narrow : Reached 3 0 [⟨-1, .lookAhead⟩] lookAheadForks := by
    refine .head rfl (.head rfl (.head rfl (.head rfl ?_)))
    exact .head rfl (.head rfl (.head rfl (.single rfl)))
  have wide : Reached 4 0 [⟨-1, .lookAhead⟩] lookAheadForks := by
    refine .head rfl (.head rfl (.head rfl (.head rfl ?_)))
    exact .head rfl (.head rfl (.head rfl (.single rfl)))
  have cut : lookAheadForks.isCut 3 = true := by decide
  obtain ⟨_, _, inThree⟩ := forks_agree 3 0 [⟨-1, .lookAhead⟩]
  obtain ⟨_, _, turnedBack, _⟩ := inThree lookAheadForks narrow
  obtain ⟨_, _, inFour⟩ := forks_agree 4 0 [⟨-1, .lookAhead⟩]
  obtain ⟨_, decides, _⟩ := inFour lookAheadForks wide
  refine ⟨by decide, ⟨narrow, cut, (turnedBack cut).2⟩, wide, ?_⟩
  intro inner outers pending
  have fitting : lookAheadForks.marked.fitsFrom 4 inner = true := by
    obtain ⟨rfl, _⟩ := List.cons.inj pending
    decide
  exact ⟨fitting, decides inner outers pending fitting⟩

end OpenLine

end Typeset

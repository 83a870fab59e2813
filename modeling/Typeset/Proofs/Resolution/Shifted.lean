import Typeset.Proofs.Resolution.Breaks

/-!
Layouts moved sideways. When the width, the column and all indentations grow by one amount,
every step of a line does what it did before, with its columns and breaks moved by that
amount: `OpenLine.step_shift`. Only differences of these numbers are ever looked at, so the
amount may be negative, and no indentation is cut off at the margin.
-/

set_option autoImplicit false

namespace Typeset

/-- A break moved to the right by the amount. Texts have no column of their own. -/
def Token.shift (amount : Int) : Token → Token
  | .text content => .text content
  | .line indent => .line (indent + amount)

def Work.shift (amount : Int) (work : Work) : Work :=
  { work with indent := work.indent + amount }

def Queue.shift (amount : Int) (queue : Queue) : Queue := queue.map (Work.shift amount)

def Fork.shift (amount : Int) (fork : Fork) : Fork where
  column := fork.column + amount
  indent := fork.indent + amount
  secondary := fork.secondary
  rest := Queue.shift amount fork.rest
  before := fork.before.map (Token.shift amount)

/-- The line moved to the right by the amount, with its queue and all its ways back. -/
def OpenLine.shift (amount : Int) (line : OpenLine) : OpenLine where
  column := line.column + amount
  queue := Queue.shift amount line.queue
  tokens := line.tokens.map (Token.shift amount)
  forks := line.forks.map (Fork.shift amount)

def Line.shift (amount : Int) (line : Line) : Line where
  tokens := line.tokens.map (Token.shift amount)
  column := line.column + amount
  rest := Queue.shift amount line.rest

def LineStep.shift (amount : Int) : LineStep → LineStep
  | .more line => .more (line.shift amount)
  | .finished line => .finished (line.shift amount)

theorem Token.fits_shift (amount remaining : Int) (tokens : List Token) :
    Token.fits (tokens.map (Token.shift amount)) remaining = Token.fits tokens remaining := by
  induction tokens generalizing remaining with
  | nil => rfl
  | cons token rest ih =>
      cases token with
      | text content => simp only [List.map_cons, Token.shift, Token.fits, ih]
      | line indent => simp only [List.map_cons, Token.shift, Token.fits]

namespace OpenLine

theorem close_shift (amount : Int) (line : OpenLine) :
    (line.shift amount).close = line.close.shift amount := by
  have before : (line.forks.map (Fork.shift amount)).flatMap Fork.before =
      (line.forks.flatMap Fork.before).map (Token.shift amount) := by
    rw [List.flatMap_map, List.map_flatMap]
    rfl
  simp only [close, allTokens, shift, Line.shift, before, List.map_reverse, List.map_append]

/-- What a fork leaves of the width is the difference to its column, so the fork is settled
in the same way. -/
theorem settle_shift (width amount : Int) (line : OpenLine) :
    (line.shift amount).settle (width + amount) = (line.settle width).shift amount := by
  have closed := close_shift amount line
  obtain ⟨column, queue, tokens, forks⟩ := line
  cases forks with
  | nil => exact congrArg LineStep.finished closed
  | cons fork forks =>
      have remaining : width + amount - (fork.column + amount) = width - fork.column := by omega
      simp only [settle, shift, List.map_cons, Fork.shift, ← List.map_reverse, remaining,
        Token.fits_shift]
      split
      · exact congrArg LineStep.finished closed
      · rfl

theorem is_cut_shift (width amount : Int) (line : OpenLine) :
    (line.shift amount).isCut (width + amount) = line.isCut width := by
  have beyond : width + amount < (line.shift amount).column ↔ width < line.column := by
    simp only [shift]
    omega
  rw [isCut, isCut, decide_eq_decide.mpr beyond, shift, List.isEmpty_map]

theorem take_shift
    (width amount : Int)
    (line : OpenLine)
    (work : Work)
    (rest : Queue) :
    (line.shift amount).take (width + amount) (work.shift amount) (Queue.shift amount rest) =
      (line.take width work rest).map (LineStep.shift amount) := by
  obtain ⟨indent, node⟩ := work
  cases node with
  | empty => rfl
  | text content =>
      have column : line.column + amount + content.length =
          line.column + content.length + amount := by omega
      simp only [take, Work.shift, shift, column]
      rfl
  | lineBreak =>
      exact congrArg Except.ok (settle_shift width amount (line.breakAt indent rest))
  | indent inner child =>
      have around : indent + amount + inner = indent + inner + amount := by omega
      simp only [take, Work.shift, around]
      rfl
  | concat left right => rfl
  | choice primary secondary => rfl
  | stray value => rfl

theorem step_shift (width amount : Int) (line : OpenLine) :
    (line.shift amount).step (width + amount) =
      (line.step width).map (LineStep.shift amount) := by
  have settled := settle_shift width amount line
  have cutAlike := is_cut_shift width amount line
  have taken := take_shift width amount line
  cases queued : line.queue with
  | nil =>
      have drained : (line.shift amount).queue = [] := by rw [shift, queued]; rfl
      simp only [step, drained, queued, settled]
      rfl
  | cons work rest =>
      have waiting : (line.shift amount).queue =
          work.shift amount :: Queue.shift amount rest := by rw [shift, queued]; rfl
      simp only [step, waiting, queued, cutAlike]
      split
      · rw [settled]
        rfl
      · exact taken work rest

theorem run_shift (width amount : Int) (line : OpenLine) :
    (line.shift amount).run (width + amount) = (line.run width).map (Line.shift amount) := by
  have alike := step_shift width amount line
  cases stepped : line.step width with
  | error fault =>
      rw [stepped] at alike
      rw [run_of_error stepped, run_of_error alike]
      rfl
  | ok next =>
      rw [stepped] at alike
      rw [run_eq_resume stepped, run_eq_resume alike]
      cases next with
      | finished done => rfl
      | more next =>
          have less := more_lowers stepped
          exact run_shift width amount next
termination_by line.steps

end OpenLine

namespace Queue

theorem line_shift (width column amount : Int) (queue : Queue) :
    Line.resolve (width + amount) (column + amount) (shift amount queue) =
      (Line.resolve width column queue).map (Line.shift amount) :=
  OpenLine.run_shift width amount (OpenLine.start column queue)

theorem all_of_shift (width column amount : Int) (queue : Queue) :
    (Queue.resolve (width + amount) (column + amount) (shift amount queue)).all =
      ⟨(Queue.resolve width column queue).all.tokens.map (Token.shift amount),
        (Queue.resolve width column queue).all.fault⟩ := by
  induction column, queue using delivery_induction width with
  | nil column =>
      rw [all_of_nil]
      exact all_of_nil _ _
  | failed column work rest fault met =>
      have moved := line_shift width column amount (work :: rest)
      rw [met] at moved
      rw [all_of_fault met]
      exact all_of_fault moved
  | line column work rest line resolved ih =>
      have moved := line_shift width column amount (work :: rest)
      rw [resolved] at moved
      rw [all_of_line resolved, shift, List.map_cons, all_of_line moved]
      simp only [Line.shift, ih, List.map_append]

end Queue

/-- A layout that is indented by an amount, for a width and from a column that are larger by
that amount, has the tokens of the layout itself with all breaks moved by the amount. For
every line in the making the moved line takes the same step, so no choice is decided by
anything but differences of width, column and indentation. -/
theorem Layout.resolve_indent_shifted (amount : Int) (layout : Layout) (width column : Int) :
    ((Layout.indent amount layout).resolve (width + amount) (column + amount)).all =
      ⟨(layout.resolve width column).all.tokens.map (Token.shift amount),
        (layout.resolve width column).all.fault⟩ ∧
    ∀ line : OpenLine, (line.shift amount).step (width + amount) =
      (line.step width).map (LineStep.shift amount) := by
  refine ⟨?_, OpenLine.step_shift width amount⟩
  have moved := Queue.all_of_shift width column amount [⟨0, layout⟩]
  rw [resolve, Queue.resolve_indent]
  exact moved

/-- Two columns further to the left than in the margin, the look ahead ends as it does there. -/
example :
    ((Layout.indent (-2) (.indent (-1) .lookAhead)).resolve 1 (-2)).all =
      ⟨[.text "a", .line (-3), .text "bc", .text "d"], none⟩ := by
  decide +kernel

end Typeset

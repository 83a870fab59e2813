import Typeset.Layout.Fault
import Typeset.Token.Basic

/-!
Resolving one line. Layouts wait in a queue, each with the indentation of its breaks.
A choice is tried with its primary branch, and a fork keeps the way back. While a fork
is pending the line is only a candidate, cut short once it runs past the width. At its
end the innermost fork is settled: if what was written since then fits, the line is
final, and else the secondary branch is resolved in its place. `step_lowers` is why this
ends, and `rest_steps_lt` why a layout has finitely many lines.
-/

set_option autoImplicit false

namespace Typeset

/-- A layout that is still to be resolved and the indentation of its breaks. -/
structure Work where
  indent : Int
  node : Layout
  deriving DecidableEq

abbrev Queue := List Work

/-- A choice whose primary branch is being tried. The tokens are those between the fork
around it and this one, the newest first. -/
structure Fork where
  column : Int
  indent : Int
  secondary : Layout
  rest : Queue
  before : List Token

/-- A line in the making. The tokens are those since the innermost fork, the newest
first; the innermost fork is the first one. -/
structure OpenLine where
  column : Int
  queue : Queue
  tokens : List Token
  forks : List Fork

/-- A resolved line, the column after it and the queue that is left. -/
structure Line where
  tokens : List Token
  column : Int
  rest : Queue
  deriving DecidableEq

/-- The line goes on, or it is finished. -/
inductive LineStep where
  | more (line : OpenLine)
  | finished (line : Line)

/-- A bound on the steps that a layout asks for when `after` bounds those of all that
follows it. Both branches of a choice are counted with what follows them. -/
def Layout.steps : Layout → (after : Nat) → Nat
  | .empty, after | .lineBreak, after | .text _, after | .stray _, after => after + 1
  | .indent _ child, after => child.steps after + 1
  | .concat left right, after => left.steps (right.steps after) + 1
  | .choice primary secondary, after => primary.steps after + secondary.steps after + 1

namespace Queue

def steps : Queue → Nat
  | [] => 1
  | work :: rest => work.node.steps (steps rest)

end Queue

def Fork.steps (fork : Fork) : Nat := fork.secondary.steps (Queue.steps fork.rest)

/-- The steps that all ways back may take. -/
def Fork.totalSteps : List Fork → Nat
  | [] => 0
  | fork :: rest => fork.steps + totalSteps rest

namespace OpenLine

/-- A line that starts at a column with a queue. -/
def start (column : Int) (queue : Queue) : OpenLine where
  column := column
  queue := queue
  tokens := []
  forks := []

/-- A bound on the steps that are left, those of every way back included. -/
def steps (line : OpenLine) : Nat :=
  Queue.steps line.queue + Fork.totalSteps line.forks

/-- All tokens of the line, the oldest first. -/
def allTokens (line : OpenLine) : List Token :=
  (line.tokens ++ line.forks.flatMap Fork.before).reverse

def close (line : OpenLine) : Line where
  tokens := line.allTokens
  column := line.column
  rest := line.queue

/-- The line is at its end. It is final if no fork is pending or what was written since
the innermost fork fits there. Otherwise that fork takes its secondary branch. -/
def settle (width : Int) (line : OpenLine) : LineStep :=
  match line.forks with
  | [] => .finished line.close
  | fork :: forks =>
      if Token.fits line.tokens.reverse (width - fork.column) then .finished line.close
      else .more
        { column := fork.column
          queue := ⟨fork.indent, fork.secondary⟩ :: fork.rest
          tokens := fork.before
          forks := forks }

/-- The line has run past the width while a fork is pending. -/
def isCut (width : Int) (line : OpenLine) : Bool :=
  !line.forks.isEmpty && width < line.column

/-- Resolves the first layout of the queue, `work`, with `rest` after it. -/
def take (width : Int) (line : OpenLine) (work : Work) (rest : Queue) :
    Except LayoutFault LineStep :=
  match work.node with
  | .empty => .ok (.more { line with queue := rest })
  | .text content =>
      .ok (.more
        { line with
          column := line.column + content.length
          queue := rest
          tokens := .text content :: line.tokens })
  | .lineBreak =>
      .ok (settle width
        { line with
          column := work.indent
          queue := rest
          tokens := .line work.indent :: line.tokens })
  | .indent amount child =>
      .ok (.more { line with queue := ⟨work.indent + amount, child⟩ :: rest })
  | .concat left right =>
      .ok (.more { line with queue := ⟨work.indent, left⟩ :: ⟨work.indent, right⟩ :: rest })
  | .choice primary secondary =>
      .ok (.more
        { column := line.column
          queue := ⟨work.indent, primary⟩ :: rest
          tokens := []
          forks := ⟨line.column, work.indent, secondary, rest, line.tokens⟩ :: line.forks })
  | .stray value => .error (.stray value)

/-- One step: the line ends where the queue does or where it is cut, and else the first
layout of the queue is resolved. -/
def step (width : Int) (line : OpenLine) : Except LayoutFault LineStep :=
  match line.queue with
  | [] => .ok (line.settle width)
  | work :: rest =>
      if line.isCut width then .ok (line.settle width) else line.take width work rest

end OpenLine

theorem Layout.lt_steps (layout : Layout) (after : Nat) : after < layout.steps after := by
  induction layout generalizing after with
  | empty | lineBreak | text | stray => simp [steps]
  | indent amount child ih =>
      have := ih after
      simp only [steps]
      omega
  | concat left right leftStep rightStep =>
      have := leftStep (right.steps after)
      have := rightStep after
      simp only [steps]
      omega
  | choice primary secondary primaryStep secondaryStep =>
      have := primaryStep after
      simp only [steps]
      omega

theorem Queue.steps_pos (queue : Queue) : 0 < Queue.steps queue := by
  cases queue with
  | nil => simp [steps]
  | cons work rest =>
      have := work.node.lt_steps (steps rest)
      simp only [steps]
      omega

namespace OpenLine

/-- Settling a line leaves a queue no longer than before, or goes on with less to do. -/
def Lowers (bound : Nat) : LineStep → Prop
  | .more next => next.steps < bound
  | .finished line => Queue.steps line.rest ≤ bound

theorem settle_lowers (width : Int) (line : OpenLine) :
    Lowers line.steps (line.settle width) := by
  have positive := Queue.steps_pos line.queue
  unfold settle
  split
  · rename_i none
    simp [Lowers, close, steps, none]
  · rename_i fork forks pending
    split
    · simp only [Lowers, close, steps]
      omega
    · simp only [Lowers, steps, Queue.steps, pending, Fork.totalSteps, Fork.steps]
      omega

theorem Lowers.mono
    {small large : Nat}
    {next : LineStep}
    (lowers : Lowers small next)
    (bound : small ≤ large) :
    Lowers large next := by
  cases next with
  | more line => exact Nat.lt_of_lt_of_le lowers bound
  | finished line => exact Nat.le_trans lowers bound

/-- Every step lowers the bound on the steps that are left. -/
theorem step_lowers
    (width : Int)
    (line : OpenLine)
    (next : LineStep)
    (stepped : line.step width = .ok next) :
    Lowers line.steps next := by
  unfold step at stepped
  split at stepped
  · cases stepped
    exact settle_lowers width line
  · rename_i work rest waiting
    split at stepped
    · cases stepped
      exact settle_lowers width line
    · unfold take at stepped
      have total : line.steps =
          work.node.steps (Queue.steps rest) + Fork.totalSteps line.forks := by
        simp [steps, waiting, Queue.steps]
      rw [total]
      split at stepped <;> rename_i node <;> cases stepped <;> rw [node]
      case h_3 =>
        refine (settle_lowers width _).mono ?_
        simp only [steps, Layout.steps]
        omega
      all_goals
        simp only [Lowers, steps, Layout.steps, Queue.steps, Fork.totalSteps, Fork.steps]
        omega

/-- Steps until the line is finished. -/
def run (width : Int) (line : OpenLine) : Except LayoutFault Line :=
  match _stepped : line.step width with
  | .error fault => .error fault
  | .ok (.finished done) => .ok done
  | .ok (.more next) => next.run width
termination_by line.steps
decreasing_by exact step_lowers width line _ _stepped

end OpenLine

/-- Resolves the queue up to the end of the line that starts at the column. -/
def Line.resolve (width column : Int) (queue : Queue) : Except LayoutFault Line :=
  (OpenLine.start column queue).run width

theorem OpenLine.run_rest_le
    (width : Int)
    (line : OpenLine)
    (done : Line)
    (resolved : line.run width = .ok done) :
    Queue.steps done.rest ≤ line.steps := by
  rw [run] at resolved
  split at resolved
  · cases resolved
  · rename_i last stepped
    cases resolved
    exact step_lowers width line _ stepped
  · rename_i next stepped
    have less : next.steps < line.steps := step_lowers width line _ stepped
    have := run_rest_le width next done resolved
    omega
termination_by line.steps

/-- The queue after a line has less to do than the queue that the line started with. -/
theorem Line.rest_steps_lt
    (width column : Int)
    (work : Work)
    (queue : Queue)
    (line : Line)
    (resolved : Line.resolve width column (work :: queue) = .ok line) :
    Queue.steps line.rest < Queue.steps (work :: queue) := by
  have whole : (OpenLine.start column (work :: queue)).steps = Queue.steps (work :: queue) := by
    simp [OpenLine.start, OpenLine.steps, Fork.totalSteps]
  rw [resolve, OpenLine.run] at resolved
  split at resolved
  · cases resolved
  · rename_i last stepped
    cases resolved
    have below := work.node.lt_steps (Queue.steps queue)
    simp only [OpenLine.step, OpenLine.start, OpenLine.isCut, OpenLine.take, List.isEmpty_nil,
      Bool.not_true, Bool.false_and, Bool.false_eq_true, if_false] at stepped
    split at stepped <;> simp [OpenLine.settle, OpenLine.close] at stepped
    subst stepped
    simpa [Queue.steps] using below
  · rename_i next stepped
    have less : next.steps < _ := OpenLine.step_lowers width _ _ stepped
    have := OpenLine.run_rest_le width next line resolved
    omega

end Typeset

import Typeset.Proofs.Resolution.Delivery

/-!
Resolution ends. Every step of a line lowers one number, which bounds the steps that its
queue and all its ways back still ask for, and a line leaves a queue that asks for fewer
steps than the one it started from. So the lines are finitely many, each takes finitely many
steps, and the number of a queue bounds the steps of all of them: `resolution_ends`.
-/

set_option autoImplicit false

namespace Typeset

/-- The line is run to its end in so many steps, and this is what comes of it. -/
inductive OpenLine.Ends (width : Int) : OpenLine → Nat → Except LayoutFault Line → Prop where
  | finished {line : OpenLine} {done : Line} :
      line.step width = .ok (.finished done) → Ends width line 1 (.ok done)
  | failed {line : OpenLine} {fault : LayoutFault} :
      line.step width = .error fault → Ends width line 1 (.error fault)
  | more {line next : OpenLine} {count : Nat} {outcome : Except LayoutFault Line} :
      line.step width = .ok (.more next) → Ends width next count outcome →
        Ends width line (count + 1) outcome

/-- The lines of the queue are resolved in so many steps altogether, and this is what they
deliver. -/
inductive Queue.Ends (width : Int) : (column : Int) → Queue → Nat → Delivery → Prop where
  | drained {column : Int} : Ends width column [] 0 ⟨[], none⟩
  | failed {column : Int} {work : Work} {rest : Queue} {count : Nat} {fault : LayoutFault} :
      (OpenLine.start column (work :: rest)).Ends width count (.error fault) →
        Ends width column (work :: rest) count ⟨[], some fault⟩
  | line {column : Int} {work : Work} {rest : Queue} {count later : Nat} {line : Line}
      {delivery : Delivery} :
      (OpenLine.start column (work :: rest)).Ends width count (.ok line) →
        Ends width line.column line.rest later delivery →
        Ends width column (work :: rest) (count + later)
          ⟨line.tokens ++ delivery.tokens, delivery.fault⟩

namespace OpenLine

variable {width : Int}

theorem steps_pos (line : OpenLine) : 0 < line.steps := by
  have := Queue.steps_pos line.queue
  simp only [steps]
  omega

theorem step_well_founded (width : Int) :
    WellFounded fun next line : OpenLine => line.step width = .ok (.more next) := by
  apply Subrelation.wf _ (measure steps).wf
  intro next line stepped
  exact more_lowers stepped

theorem run_ends (width : Int) (line : OpenLine) :
    ∃ count ≤ line.steps, line.Ends width count (line.run width) := by
  have positive := line.steps_pos
  rw [run]
  split
  · rename_i fault stepped
    exact ⟨1, positive, .failed stepped⟩
  · rename_i done stepped
    exact ⟨1, positive, .finished stepped⟩
  · rename_i next stepped
    have less := more_lowers stepped
    obtain ⟨count, bound, ends⟩ := run_ends width next
    exact ⟨count + 1, by omega, .more stepped ends⟩
termination_by line.steps

theorem close_of_settle
    {line : OpenLine}
    {done : Line}
    (settled : line.settle width = .finished done) :
    done = line.close := by
  unfold settle at settled
  split at settled
  · cases settled
    rfl
  · split at settled
    · cases settled
      rfl
    · cases settled

/-- The last step of a line is paid for as well, unless there is nothing left to resolve. -/
theorem finished_lowers
    {line : OpenLine}
    {done : Line}
    (stepped : line.step width = .ok (.finished done))
    (left : done.rest ≠ []) :
    Queue.steps done.rest < line.steps := by
  unfold step at stepped
  split at stepped
  · rename_i drained
    rw [close_of_settle (Except.ok.inj stepped)] at left
    exact absurd drained left
  · rename_i work rest waiting
    split at stepped
    · rename_i cut
      rw [close_of_settle (Except.ok.inj stepped)]
      -- A line is cut only while a fork is pending, and that one counts.
      cases pending : line.forks with
      | nil => simp [isCut, pending] at cut
      | cons fork forks =>
          have counted := fork.secondary.lt_steps (Queue.steps fork.rest)
          simp only [steps, close, pending, Fork.totalSteps, Fork.steps]
          omega
    · obtain ⟨indent, node⟩ := work
      cases node with
      | lineBreak =>
          rw [close_of_settle (Except.ok.inj stepped)]
          simp only [steps, close, waiting, Queue.steps, Layout.steps]
          omega
      | empty => cases stepped
      | text content => cases stepped
      | indent amount child => cases stepped
      | concat first second => cases stepped
      | choice primary secondary => cases stepped
      | stray value => cases stepped

theorem Ends.lowers
    {line : OpenLine}
    {count : Nat}
    {done : Line}
    (ends : line.Ends width count (.ok done))
    (left : done.rest ≠ []) :
    count + Queue.steps done.rest ≤ line.steps := by
  generalize same : Except.ok done = outcome at ends
  induction ends with
  | finished stepped =>
      cases same
      have := finished_lowers stepped left
      omega
  | failed stepped => cases same
  | more stepped ends ih =>
      have := more_lowers stepped
      have := ih same
      omega

end OpenLine

namespace Queue

theorem start_steps (column : Int) (queue : Queue) :
    (OpenLine.start column queue).steps = steps queue := by
  simp [OpenLine.start, OpenLine.steps, Fork.totalSteps]

theorem line_ends (width column : Int) (queue : Queue) :
    ∃ count ≤ steps queue,
      (OpenLine.start column queue).Ends width count (Line.resolve width column queue) := by
  have ends := (OpenLine.start column queue).run_ends width
  rwa [start_steps] at ends

theorem Ends.count_of_drained
    {width column : Int}
    {count : Nat}
    {delivery : Delivery}
    (ends : Ends width column [] count delivery) :
    count = 0 := by
  cases ends
  rfl

theorem resolve_ends (width column : Int) (queue : Queue) :
    ∃ count ≤ steps queue,
      Ends width column queue count (Queue.resolve width column queue).all := by
  induction column, queue using delivery_induction width with
  | nil column =>
      rw [all_of_nil]
      exact ⟨0, Nat.zero_le _, .drained⟩
  | failed column work rest fault resolved =>
      obtain ⟨count, bound, ends⟩ := line_ends width column (work :: rest)
      rw [resolved] at ends
      rw [all_of_fault resolved]
      exact ⟨count, bound, .failed ends⟩
  | line column work rest line resolved ih =>
      obtain ⟨count, bound, ends⟩ := line_ends width column (work :: rest)
      obtain ⟨later, laterBound, laterEnds⟩ := ih
      rw [resolved] at ends
      rw [all_of_line resolved]
      refine ⟨count + later, ?_, .line ends laterEnds⟩
      by_cases left : line.rest = []
      · -- Nothing is resolved after the last line.
        rw [left] at laterEnds
        rw [laterEnds.count_of_drained]
        exact bound
      · have paid := ends.lowers left
        rw [start_steps] at paid
        omega

/-- Resolution ends for every queue, strays or not, and at every width and column. No line
goes on for ever, as each step that goes on lowers the number of steps that are left. That
number is lower after a line than before it, and it bounds all the steps that are taken. -/
theorem resolution_ends (width : Int) :
    (WellFounded fun next line : OpenLine => line.step width = .ok (.more next)) ∧
      (∀ line next : OpenLine, line.step width = .ok (.more next) →
        steps next.queue + Fork.totalSteps next.forks <
          steps line.queue + Fork.totalSteps line.forks) ∧
      ∀ column queue,
        (∃ count ≤ steps queue,
          (OpenLine.start column queue).Ends width count (Line.resolve width column queue)) ∧
        (∀ line, queue ≠ [] → Line.resolve width column queue = .ok line →
          steps line.rest < steps queue) ∧
        ∃ count ≤ steps queue,
          Ends width column queue count (Queue.resolve width column queue).all := by
  refine ⟨OpenLine.step_well_founded width, ?_, ?_⟩
  · intro line next stepped
    exact OpenLine.more_lowers stepped
  · intro column queue
    refine ⟨line_ends width column queue, ?_, resolve_ends width column queue⟩
    intro line waiting resolved
    cases queue with
    | nil => exact absurd rfl waiting
    | cons work rest => exact Line.rest_steps_lt width column work rest line resolved

/-- A text that has run past the first column, with a shorter one and another text waiting
in its fork. -/
def pastTheWidth : OpenLine where
  column := 2
  queue := []
  tokens := [.text "bc"]
  forks := [⟨0, 0, .text "b", [⟨0, .text "d"⟩], []⟩]

/-- The way back leads to a longer queue, but fewer steps are left. -/
theorem way_back_lowers_steps :
    ∃ next : OpenLine, pastTheWidth.step 1 = .ok (.more next) ∧
      pastTheWidth.queue.length < next.queue.length ∧
      steps next.queue + Fork.totalSteps next.forks <
        steps pastTheWidth.queue + Fork.totalSteps pastTheWidth.forks := by
  obtain ⟨_, lowers, _⟩ := resolution_ends 1
  refine ⟨_, rfl, by decide, ?_⟩
  apply lowers
  rfl

end Queue

end Typeset

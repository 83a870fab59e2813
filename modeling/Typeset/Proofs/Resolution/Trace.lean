import Typeset.Proofs.Resolution.Breaks

/-!
The tokens of a queue by recursion, strays included. A stray ends the recursion where its
turn comes. The tokens that its line had by then still say whether a branch fits, although
they are never delivered. What has been written since the innermost fork, and what the
recursion makes of the queue, tell what comes of a line in the making, and no step changes
that: `OpenLine.run_traces`. So equal traces are delivered alike: `Queue.all_of_trace`.
-/

set_option autoImplicit false

namespace Typeset

/-- The tokens up to the last break. -/
def Token.wholeLines : List Token → List Token
  | [] => []
  | .line indent :: rest => .line indent :: wholeLines rest
  | .text content :: rest =>
      match wholeLines rest with
      | [] => []
      | token :: later => .text content :: token :: later

namespace Delivery

def behind (earlier : List Token) (delivery : Delivery) : Delivery where
  tokens := earlier ++ delivery.tokens
  fault := delivery.fault

/-- A fault spoils all that was written in its line. -/
def wholeLines (delivery : Delivery) : Delivery :=
  match delivery.fault with
  | none => delivery
  | some fault => ⟨Token.wholeLines delivery.tokens, some fault⟩

theorem behind_behind (earlier later : List Token) (delivery : Delivery) :
    (delivery.behind later).behind earlier = delivery.behind (earlier ++ later) := by
  simp only [behind, List.append_assoc]

end Delivery

/-- The tokens of a queue whose first one stands at the column, up to a stray whose turn
comes. Those of the line with the stray are there as well. -/
def Queue.trace (width column : Int) (queue : Queue) : Delivery :=
  match queue with
  | [] => ⟨[], none⟩
  | ⟨_, .empty⟩ :: rest => trace width column rest
  | ⟨_, .text content⟩ :: rest =>
      (trace width (column + content.length) rest).behind [.text content]
  | ⟨indent, .lineBreak⟩ :: rest => (trace width indent rest).behind [.line indent]
  | ⟨indent, .indent amount child⟩ :: rest => trace width column (⟨indent + amount, child⟩ :: rest)
  | ⟨indent, .concat left right⟩ :: rest =>
      trace width column (⟨indent, left⟩ :: ⟨indent, right⟩ :: rest)
  | ⟨indent, .choice primary secondary⟩ :: rest =>
      let preferred := trace width column (⟨indent, primary⟩ :: rest)
      if Token.fits preferred.tokens (width - column) then preferred
      else trace width column (⟨indent, secondary⟩ :: rest)
  | ⟨_, .stray value⟩ :: _ => ⟨[], some (.stray value)⟩
termination_by Queue.steps queue
decreasing_by
  all_goals
    simp only [Queue.steps, Layout.steps]
    omega

/-- What comes of a line with these forks pending, when the rest of it since the innermost
fork is known: that fork keeps it if it fits there, and else takes its secondary branch. -/
def Fork.trace (width : Int) : List Fork → (since : Delivery) → Delivery
  | [], since => since
  | fork :: forks, since =>
      if Token.fits since.tokens (width - fork.column) then
        since.behind (Fork.earlier (fork :: forks))
      else
        let back := Queue.trace width fork.column (⟨fork.indent, fork.secondary⟩ :: fork.rest)
        Fork.trace width forks (back.behind fork.before.reverse)

namespace Token

theorem whole_lines_unbroken (tokens : List Token) (unbroken : Unbroken tokens) :
    wholeLines tokens = [] := by
  induction tokens with
  | nil => rfl
  | cons token rest ih =>
      cases token with
      | text content => rw [wholeLines, ih unbroken]
      | line indent => exact unbroken.elim

theorem whole_lines_before_break (earlier later : List Token) (indent : Int) :
    wholeLines (earlier ++ .line indent :: later) = earlier ++ .line indent :: wholeLines later := by
  induction earlier with
  | nil => rfl
  | cons token rest ih =>
      rw [List.cons_append]
      cases token with
      | text content =>
          rw [wholeLines, ih]
          cases rest <;> rfl
      | line indent => rw [wholeLines, ih, List.cons_append]

end Token

namespace OpenLine

/-- What was written since the innermost fork, and what the queue makes of the rest. -/
def since (width : Int) (line : OpenLine) : Delivery :=
  (Queue.trace width line.column line.queue).behind line.tokens.reverse

def trace (width : Int) (line : OpenLine) : Delivery := Fork.trace width line.forks (line.since width)

end OpenLine

/-- The whole trace is what comes of the line from here, or has been met in it. -/
def Line.Traces (width : Int) (whole : Delivery) : Except LayoutFault Line → Prop
  | .ok line => (Queue.trace width line.column line.rest).behind line.tokens = whole
  | .error fault => ∃ tokens, Token.Unbroken tokens ∧ whole = ⟨tokens, some fault⟩

def LineStep.Traces (width : Int) (whole : Delivery) : Except LayoutFault LineStep → Prop
  | .ok (.more line) => line.trace width = whole
  | .ok (.finished line) => Line.Traces width whole (.ok line)
  | .error fault => Line.Traces width whole (.error fault)

namespace OpenLine

variable {width start : Int} {line : OpenLine}

theorem since_unbroken (placed : line.Placed start) : Token.Unbroken line.tokens.reverse := by
  have unbroken := placed.unbroken
  rw [all_tokens_eq, Token.unbroken_append] at unbroken
  exact unbroken.2

/-- The line stands as far behind its innermost fork as the texts since then take it. -/
theorem column_since_fork
    (placed : line.Placed start)
    (fork : Fork)
    (forks : List Fork)
    (pending : line.forks = fork :: forks) :
    line.column = fork.column + Token.textLength line.tokens.reverse := by
  have column := placed.column
  have back := placed.forks
  rw [all_tokens_eq, Token.text_length_append, pending] at column
  rw [pending] at back
  rw [column, back.1]
  omega

theorem fits_since
    (placed : line.Placed start)
    (fork : Fork)
    (forks : List Fork)
    (pending : line.forks = fork :: forks)
    (later : List Token) :
    Token.fits (line.tokens.reverse ++ later) (width - fork.column) =
      Token.fits later (width - line.column) := by
  have column := column_since_fork placed fork forks pending
  rw [Bool.eq_iff_iff, Token.fits_iff, Token.fits_iff,
    Token.first_length_append _ _ (since_unbroken placed)]
  omega

/-- What fits from here fits from every fork, so none of them is gone back to. -/
theorem trace_of_fits
    (placed : line.Placed start)
    (later : Delivery)
    (fitting : Token.fits later.tokens (width - line.column) = true) :
    Fork.trace width line.forks (later.behind line.tokens.reverse) =
      later.behind line.allTokens := by
  rw [all_tokens_eq]
  cases pending : line.forks with
  | nil => rfl
  | cons fork forks =>
      rw [Fork.trace, Delivery.behind, fits_since placed fork forks pending, if_pos fitting]
      exact Delivery.behind_behind _ _ later

/-- A line that is at its end is settled as its trace is, if the trace has the same verdict
on what was written since the innermost fork. -/
theorem settle_traces
    (same : ∀ fork forks, line.forks = fork :: forks →
      Token.fits (line.since width).tokens (width - fork.column) =
        Token.fits line.tokens.reverse (width - fork.column)) :
    LineStep.Traces width (line.trace width) (.ok (line.settle width)) := by
  have closed : Line.Traces width ((line.since width).behind (Fork.earlier line.forks))
      (.ok line.close) := by
    simp only [Line.Traces, close, since, all_tokens_eq, Delivery.behind_behind]
  rw [trace]
  unfold settle
  split
  · rename_i none
    rw [none] at closed ⊢
    exact closed
  · rename_i fork forks pending
    rw [pending] at closed ⊢
    rw [Fork.trace, same fork forks pending]
    split
    · exact closed
    · rfl

theorem trace_of_same_since
    {next : OpenLine}
    (forks : next.forks = line.forks)
    (same : next.since width = line.since width) :
    next.trace width = line.trace width := by
  rw [trace, trace, forks, same]

theorem trace_of_same_queue
    (queue : Queue)
    (same : Queue.trace width line.column line.queue = Queue.trace width line.column queue) :
    OpenLine.trace width { line with queue := queue } = line.trace width := by
  rw [trace, trace, since, since, same]

/-- The new fork turns the primary branch away where the trace does. -/
theorem trace_of_fork
    (placed : line.Placed start)
    (indent : Int)
    (primary secondary : Layout)
    (rest : Queue)
    (waiting : line.queue = ⟨indent, .choice primary secondary⟩ :: rest) :
    Fork.trace width (⟨line.column, indent, secondary, rest, line.tokens⟩ :: line.forks)
        (Queue.trace width line.column (⟨indent, primary⟩ :: rest)) =
      line.trace width := by
  have before : Fork.earlier (⟨line.column, indent, secondary, rest, line.tokens⟩ :: line.forks) =
      line.allTokens := by
    rw [Fork.earlier_cons, all_tokens_eq]
  rw [Fork.trace, before, trace, since, waiting, Queue.trace]
  split
  · rename_i fitting
    exact (trace_of_fits placed _ fitting).symm
  · rfl

/-- A line that is not cut fits as far as it goes, so the stray that it comes to is met. -/
theorem stray_traces
    (placed : line.Placed start)
    (whole : line.isCut width = false)
    (indent : Int)
    (value : Stray)
    (rest : Queue)
    (waiting : line.queue = ⟨indent, .stray value⟩ :: rest) :
    line.trace width = ⟨line.allTokens, some (.stray value)⟩ := by
  have met : line.since width =
      (⟨[], some (.stray value)⟩ : Delivery).behind line.tokens.reverse := by
    rw [since, waiting, Queue.trace]
  have reached : (⟨[], some (.stray value)⟩ : Delivery).behind line.allTokens =
      ⟨line.allTokens, some (.stray value)⟩ := by
    rw [Delivery.behind, List.append_nil]
  rw [trace, met, ← reached]
  cases pending : line.forks with
  | nil =>
      rw [all_tokens_eq, pending]
      rfl
  | cons fork forks =>
      have within : Token.fits [] (width - line.column) = true := by
        simp only [isCut, pending, List.isEmpty_cons, Bool.not_false, Bool.true_and,
          decide_eq_false_iff_not] at whole
        rw [Token.fits_iff, Token.firstLength]
        omega
      rw [← pending]
      exact trace_of_fits placed ⟨[], some (.stray value)⟩ within

theorem take_traces
    (placed : line.Placed start)
    (whole : line.isCut width = false)
    (work : Work)
    (rest : Queue)
    (waiting : line.queue = work :: rest) :
    LineStep.Traces width (line.trace width) (line.take width work rest) := by
  obtain ⟨indent, node⟩ := work
  cases node with
  | empty => exact trace_of_same_queue rest (by rw [waiting, Queue.trace])
  | indent amount child => exact trace_of_same_queue _ (by rw [waiting, Queue.trace])
  | concat left right => exact trace_of_same_queue _ (by rw [waiting, Queue.trace])
  | text content =>
      have same : OpenLine.since width
          { line with
            column := line.column + content.length
            queue := rest
            tokens := .text content :: line.tokens } = line.since width := by
        rw [since, since, waiting, Queue.trace, Delivery.behind_behind, List.reverse_cons]
      exact trace_of_same_since rfl same
  | lineBreak =>
      have same : (line.breakAt indent rest).since width = line.since width := by
        rw [since, since, waiting, Queue.trace, Delivery.behind_behind, breakAt,
          List.reverse_cons]
      have settled : LineStep.Traces width ((line.breakAt indent rest).trace width)
          (.ok ((line.breakAt indent rest).settle width)) := by
        apply settle_traces
        intro fork forks pending
        simp only [since, breakAt, Delivery.behind, List.reverse_cons, List.append_assoc,
          List.singleton_append, Token.fits_before_break]
      have forks : (line.breakAt indent rest).forks = line.forks := rfl
      rw [trace_of_same_since forks same] at settled
      exact settled
  | choice primary secondary => exact trace_of_fork placed indent primary secondary rest waiting
  | stray value =>
      exact ⟨line.allTokens, placed.unbroken, stray_traces placed whole indent value rest waiting⟩

/-- No step changes what comes of the line. -/
theorem step_traces (placed : line.Placed start) :
    LineStep.Traces width (line.trace width) (line.step width) := by
  cases queued : line.queue with
  | nil =>
      rw [step, queued]
      apply settle_traces
      intro fork forks pending
      rw [since, queued, Queue.trace, Delivery.behind, List.append_nil]
  | cons work rest =>
      cases cut : line.isCut width with
      | false =>
          simp only [step, queued, cut, Bool.false_eq_true, if_false]
          exact take_traces placed cut work rest queued
      | true =>
          simp only [step, queued, cut, if_true]
          apply settle_traces
          intro fork forks pending
          -- Neither the line nor anything that it goes on with fits behind the cut.
          have beyond (later : List Token) :
              Token.fits (line.tokens.reverse ++ later) (width - fork.column) = false := by
            simp only [isCut, Bool.and_eq_true, decide_eq_true_eq] at cut
            rw [fits_since placed fork forks pending, Bool.eq_false_iff]
            intro fitting
            rw [Token.fits_iff] at fitting
            omega
          have here := beyond []
          rw [List.append_nil] at here
          rw [here]
          exact beyond _

theorem run_traces (line : OpenLine) (placed : line.Placed start) :
    Line.Traces width (line.trace width) (line.run width) := by
  have traced : LineStep.Traces width (line.trace width) (line.step width) := step_traces placed
  cases stepped : line.step width with
  | error fault =>
      rw [stepped] at traced
      rw [run_of_error stepped]
      exact traced
  | ok next =>
      rw [stepped] at traced
      rw [run_eq_resume stepped]
      cases next with
      | finished done => exact traced
      | more next =>
          have less := more_lowers stepped
          have kept := step_keeps placed _ stepped
          have same : next.trace width = line.trace width := traced
          rw [← same]
          exact run_traces next kept.1
termination_by line.steps

end OpenLine

namespace Queue

theorem line_traces (width column : Int) (queue : Queue) :
    Line.Traces width (trace width column queue) (Line.resolve width column queue) :=
  OpenLine.run_traces _ (OpenLine.start_placed column queue)

/-- What is delivered of a queue is its trace, as far as its lines are whole. -/
theorem all_of_trace (width column : Int) (queue : Queue) :
    (Queue.resolve width column queue).all = (trace width column queue).wholeLines := by
  induction column, queue using delivery_induction width with
  | nil column =>
      rw [all_of_nil, trace]
      rfl
  | failed column work rest fault met =>
      have traced := line_traces width column (work :: rest)
      rw [met] at traced
      obtain ⟨tokens, unbroken, whole⟩ := traced
      rw [all_of_fault met, whole, Delivery.wholeLines, Token.whole_lines_unbroken _ unbroken]
  | line column work rest line resolved ih =>
      have traced := line_traces width column (work :: rest)
      rw [resolved] at traced
      have whole : (trace width line.column line.rest).behind line.tokens = _ := traced
      rw [all_of_line resolved, ih, ← whole]
      cases met : (trace width line.column line.rest).fault with
      | none => simp only [Delivery.wholeLines, Delivery.behind, met]
      | some fault =>
          have left : line.rest ≠ [] := by
            intro drained
            rw [drained, trace] at met
            cases met
          obtain ⟨earlier, indent, ended⟩ :=
            (Line.complete_of_resolved resolved).ends_with_break left
          simp only [Delivery.wholeLines, Delivery.behind, met, ended, List.append_assoc,
            List.singleton_append, Token.whole_lines_before_break]

end Queue

end Typeset

import Typeset.Layout.Build
import Typeset.Proofs.Resolution.Delivery

/-!
What a break keeps apart. A line whose queue is empty and a line whose queue goes on with a
break are settled alike, as a break fits wherever the end does. So whatever stands behind a
break changes no decision before it, neither in the line that runs into the break nor in the
ways back, which come to the same break: `Queue.resolve_before_break`.
-/

set_option autoImplicit false

namespace Typeset

/-- What is delivered first and then what is delivered later. A fault ends both. -/
def Delivery.andThen (first later : Delivery) : Delivery :=
  match first.fault with
  | some _ => first
  | none => ⟨first.tokens ++ later.tokens, later.fault⟩

theorem Delivery.and_then_behind (tokens : List Token) (first later : Delivery) :
    andThen ⟨tokens ++ first.tokens, first.fault⟩ later =
      ⟨tokens ++ (first.andThen later).tokens, (first.andThen later).fault⟩ := by
  obtain ⟨delivered, fault⟩ := first
  cases fault with
  | none => simp only [andThen, List.append_assoc]
  | some fault => rfl

/-- The queue comes to a break before anything else, and `after` is left behind it. -/
inductive Queue.StartsWithBreak (indent : Int) (after : Queue) : Queue → Prop where
  | lineBreak : StartsWithBreak indent after (⟨indent, .lineBreak⟩ :: after)
  | concat {around : Int} {left right : Layout} {rest : Queue} :
      StartsWithBreak indent after (⟨around, left⟩ :: ⟨around, right⟩ :: rest) →
        StartsWithBreak indent after (⟨around, .concat left right⟩ :: rest)

def Fork.followedBy (tail : Queue) (fork : Fork) : Fork :=
  { fork with rest := fork.rest ++ tail }

def Line.followedBy (tail : Queue) (line : Line) : Line :=
  { line with rest := line.rest ++ tail }

/-- The line with more to resolve after its queue, on all its ways back as well. -/
def OpenLine.followedBy (tail : Queue) (line : OpenLine) : OpenLine :=
  { line with queue := line.queue ++ tail, forks := line.forks.map (Fork.followedBy tail) }

def LineStep.followedBy (tail : Queue) : LineStep → LineStep
  | .more line => .more (line.followedBy tail)
  | .finished line => .finished (line.followedBy tail)

/-- What comes of a line after a step. -/
def LineStep.resume (width : Int) : LineStep → Except LayoutFault Line
  | .more line => line.run width
  | .finished line => .ok line

/-- What comes of a line, and what comes of it when a break follows its queue: the line ends
before that break, or it runs into it. -/
inductive Line.Followed (indent : Int) (after tail : Queue) :
    Except LayoutFault Line → Except LayoutFault Line → Prop where
  | failed (fault : LayoutFault) : Followed indent after tail (.error fault) (.error fault)
  | ended (line : Line) : Followed indent after tail (.ok line) (.ok (line.followedBy tail))
  | drained (tokens : List Token) (column : Int) :
      Followed indent after tail (.ok ⟨tokens, column, []⟩)
        (.ok ⟨tokens ++ [.line indent], indent, after⟩)

theorem Fork.earlier_followed_by (tail : Queue) (forks : List Fork) :
    earlier (forks.map (followedBy tail)) = earlier forks := by
  simp only [earlier, List.flatMap_map]
  rfl

theorem Fork.Placed.followed_by
    {start : Int}
    {forks : List Fork}
    (placed : Placed start forks)
    (tail : Queue) :
    Placed start (forks.map (followedBy tail)) := by
  induction forks with
  | nil => trivial
  | cons fork forks ih =>
      obtain ⟨column, unbroken, others⟩ := placed
      have same := earlier_followed_by tail (fork :: forks)
      rw [List.map_cons] at same ⊢
      refine ⟨?_, ?_, ih others⟩
      · rw [same]
        exact column
      · rw [same]
        exact unbroken

namespace OpenLine

variable {width start indent : Int} {after tail : Queue} {line : OpenLine}

theorem all_tokens_followed_by (tail : Queue) (line : OpenLine) :
    (line.followedBy tail).allTokens = line.allTokens := by
  rw [all_tokens_eq, all_tokens_eq]
  simp only [followedBy, Fork.earlier_followed_by]

theorem Placed.followed_by (placed : line.Placed start) (tail : Queue) :
    (line.followedBy tail).Placed start := by
  refine ⟨?_, ?_, placed.forks.followed_by tail⟩
  · rw [all_tokens_followed_by]
    exact placed.column
  · rw [all_tokens_followed_by]
    exact placed.unbroken

theorem close_followed_by (tail : Queue) (line : OpenLine) :
    (line.followedBy tail).close = line.close.followedBy tail := by
  rw [close, all_tokens_followed_by]
  rfl

theorem settle_followed_by (width : Int) (tail : Queue) (line : OpenLine) :
    (line.followedBy tail).settle width = (line.settle width).followedBy tail := by
  have closed := close_followed_by tail line
  obtain ⟨column, queue, tokens, forks⟩ := line
  cases forks with
  | nil => exact congrArg LineStep.finished closed
  | cons fork forks =>
      simp only [settle, followedBy, List.map_cons, Fork.followedBy]
      split
      · exact congrArg LineStep.finished closed
      · rfl

/-- The line with a break at its end. -/
def breakAt (indent : Int) (after : Queue) (line : OpenLine) : OpenLine :=
  { line with column := indent, queue := after, tokens := .line indent :: line.tokens }

theorem take_followed_by
    (width : Int)
    (tail : Queue)
    (line : OpenLine)
    (work : Work)
    (rest : Queue) :
    (line.followedBy tail).take width work (rest ++ tail) =
      (line.take width work rest).map (LineStep.followedBy tail) := by
  obtain ⟨indent, node⟩ := work
  cases node with
  | lineBreak => exact congrArg Except.ok (settle_followed_by width tail (line.breakAt indent rest))
  | empty => rfl
  | text content => rfl
  | indent amount child => rfl
  | concat left right => rfl
  | choice primary secondary => rfl
  | stray value => rfl

theorem step_followed_by
    (width : Int)
    (tail : Queue)
    {line : OpenLine}
    (waiting : line.queue ≠ []) :
    (line.followedBy tail).step width = (line.step width).map (LineStep.followedBy tail) := by
  have settled := settle_followed_by width tail line
  have taken := take_followed_by width tail line
  have cutAlike : (line.followedBy tail).isCut width = line.isCut width := by
    cases forks : line.forks <;> simp [isCut, followedBy, forks]
  cases queued : line.queue with
  | nil => exact absurd queued waiting
  | cons work rest =>
      have longer : (line.followedBy tail).queue = work :: (rest ++ tail) := by
        rw [followedBy, queued, List.cons_append]
      simp only [step, longer, queued, cutAlike]
      split
      · rw [settled]
        rfl
      · exact taken work rest

theorem run_of_error {fault : LayoutFault} (stepped : line.step width = .error fault) :
    line.run width = .error fault := by
  rw [run]
  split <;> simp_all

theorem run_eq_resume {next : LineStep} (stepped : line.step width = .ok next) :
    line.run width = next.resume width := by
  cases next with
  | more next => exact run_of_more next stepped
  | finished done => exact run_of_finished done stepped

/-- A line that is cut does not fit, and it would not fit with a break at its end. -/
theorem settle_of_cut
    (placed : line.Placed start)
    (cut : line.isCut width = true)
    (indent : Int)
    (after : Queue) :
    line.settle width = (line.breakAt indent after).settle width := by
  simp only [isCut, Bool.and_eq_true, Bool.not_eq_true', List.isEmpty_eq_false_iff,
    decide_eq_true_eq] at cut
  obtain ⟨pending, beyond⟩ := cut
  cases forks : line.forks with
  | nil => exact absurd forks pending
  | cons fork others =>
      have wide : Token.fits line.tokens.reverse (width - fork.column) = false := by
        rw [fits_since_fork placed.ended fork others forks]
        have column := placed.column
        have short : ¬ start + Token.textLength line.allTokens ≤ width := by omega
        exact decide_eq_false short
      have broken : Token.fits (line.breakAt indent after).tokens.reverse
          (width - fork.column) = false := by
        rw [breakAt, List.reverse_cons, Token.fits_before_break, wide]
      simp only [settle, breakAt, forks] at broken ⊢
      rw [if_neg (Bool.eq_false_iff.mp wide), if_neg (Bool.eq_false_iff.mp broken)]

theorem run_of_cut
    (placed : line.Placed start)
    (cut : line.isCut width = true)
    (waiting : line.queue ≠ [])
    (indent : Int)
    (after : Queue) :
    line.run width = ((line.breakAt indent after).settle width).resume width := by
  have stepped : line.step width = .ok (line.settle width) := by
    cases queued : line.queue with
    | nil => exact absurd queued waiting
    | cons work rest =>
        rw [step, queued]
        exact if_pos cut
  rw [run_eq_resume stepped, settle_of_cut placed cut]

/-- The line takes the break that its queue starts with, unless it is cut before. -/
theorem run_at_break
    (placed : line.Placed start)
    (starts : Queue.StartsWithBreak indent after line.queue) :
    line.run width = ((line.breakAt indent after).settle width).resume width := by
  generalize queued : line.queue = queue at starts
  induction starts generalizing line with
  | lineBreak =>
      by_cases cut : line.isCut width = true
      · exact run_of_cut placed cut (by simp [queued]) indent after
      · apply run_eq_resume
        rw [step, queued]
        exact if_neg cut
  | @concat around left right rest opened ih =>
      by_cases cut : line.isCut width = true
      · exact run_of_cut placed cut (by simp [queued]) indent after
      · have stepped : line.step width = .ok (.more
            { line with queue := ⟨around, left⟩ :: ⟨around, right⟩ :: rest }) := by
          rw [step, queued]
          exact if_neg cut
        rw [run_of_more _ stepped]
        exact ih ⟨placed.column, placed.unbroken, placed.forks⟩ rfl

/-- At the end of its queue the line is settled as it is with a break there. -/
theorem settle_at_break (width indent : Int) (after tail : Queue) (line : OpenLine) :
    (line.settle width = .finished line.close ∧
        ((line.followedBy tail).breakAt indent after).settle width =
          .finished ⟨line.allTokens ++ [.line indent], indent, after⟩) ∨
      ∃ next, line.settle width = .more next ∧
        ((line.followedBy tail).breakAt indent after).settle width =
          .more (next.followedBy tail) := by
  have written : ((line.followedBy tail).breakAt indent after).close =
      ⟨line.allTokens ++ [.line indent], indent, after⟩ := by
    rw [← all_tokens_followed_by tail]
    simp [close, breakAt, allTokens]
  obtain ⟨column, queue, tokens, forks⟩ := line
  cases forks with
  | nil => exact .inl ⟨rfl, congrArg LineStep.finished written⟩
  | cons fork others =>
      have sameFit := Token.fits_before_break tokens.reverse [] indent (width - fork.column)
      rw [← List.reverse_cons] at sameFit
      cases fitting : Token.fits tokens.reverse (width - fork.column) with
      | true =>
          rw [fitting] at sameFit
          refine .inl ⟨if_pos fitting, ?_⟩
          rw [← written]
          exact if_pos sameFit
      | false =>
          rw [fitting] at sameFit
          refine .inr ⟨_, if_neg (Bool.eq_false_iff.mp fitting), ?_⟩
          exact if_neg (Bool.eq_false_iff.mp sameFit)

/-- What stands behind a break changes nothing in the lines before it. -/
theorem run_followed_by
    (starts : Queue.StartsWithBreak indent after tail)
    (line : OpenLine)
    (placed : line.Placed start) :
    Line.Followed indent after tail (line.run width) ((line.followedBy tail).run width) := by
  cases queued : line.queue with
  | nil =>
      have reached : (line.followedBy tail).queue = tail := by
        rw [followedBy, queued, List.nil_append]
      have settled : line.step width = .ok (line.settle width) := by
        rw [step, queued]
      rw [run_at_break (placed.followed_by tail) (reached ▸ starts), run_eq_resume settled]
      rcases settle_at_break width indent after tail line with
        ⟨last, broken⟩ | ⟨next, back, backAlike⟩
      · rw [last, broken, close, queued]
        exact .drained _ _
      · rw [back] at settled
        have less := more_lowers settled
        have kept := step_keeps placed _ settled
        rw [back, backAlike]
        exact run_followed_by starts next kept.1
  | cons work rest =>
      have waiting : line.queue ≠ [] := by simp [queued]
      have alike := step_followed_by width tail waiting
      cases stepped : line.step width with
      | error fault =>
          rw [stepped] at alike
          rw [run_of_error stepped, run_of_error alike]
          exact .failed fault
      | ok next =>
          rw [stepped] at alike
          rw [run_eq_resume stepped, run_eq_resume alike]
          cases next with
          | finished done => exact .ended done
          | more next =>
              have less := more_lowers stepped
              have kept := step_keeps placed _ stepped
              exact run_followed_by starts next kept.1
termination_by line.steps

end OpenLine

namespace Queue

variable {width column indent : Int} {after tail : Queue}

theorem line_followed_by
    (starts : StartsWithBreak indent after tail)
    (width column : Int)
    (queue : Queue) :
    Line.Followed indent after tail (Line.resolve width column queue)
      (Line.resolve width column (queue ++ tail)) :=
  OpenLine.run_followed_by starts _ (OpenLine.start_placed column queue)

theorem all_of_break (starts : StartsWithBreak indent after tail) (width column : Int) :
    (Queue.resolve width column tail).all =
      ⟨.line indent :: (Queue.resolve width indent after).all.tokens,
        (Queue.resolve width indent after).all.fault⟩ := by
  have resolved : Line.resolve width column tail = .ok ⟨[.line indent], indent, after⟩ :=
    OpenLine.run_at_break (OpenLine.start_placed column tail) starts
  cases starts with
  | lineBreak => exact all_of_line resolved
  | concat opened => exact all_of_line resolved

/-- A break keeps two resolutions apart: what stands before it is resolved as if nothing
followed, and what stands behind it as if it stood alone at the column of the break. -/
theorem resolve_before_break
    (starts : StartsWithBreak indent after tail)
    (width column : Int)
    (queue : Queue) :
    (Queue.resolve width column (queue ++ tail)).all =
      (Queue.resolve width column queue).all.andThen
        ⟨.line indent :: (Queue.resolve width indent after).all.tokens,
          (Queue.resolve width indent after).all.fault⟩ := by
  induction column, queue using delivery_induction width with
  | nil column =>
      rw [List.nil_append, all_of_break starts, all_of_nil]
      rfl
  | failed column work rest fault met =>
      have followed := line_followed_by starts width column (work :: rest)
      rw [met] at followed
      rw [all_of_fault met]
      rw [List.cons_append] at followed ⊢
      generalize longer : Line.resolve width column (work :: (rest ++ tail)) = outcome at followed
      cases followed with
      | failed => exact all_of_fault longer
  | line column work rest line resolved ih =>
      have followed := line_followed_by starts width column (work :: rest)
      rw [resolved] at followed
      rw [all_of_line resolved, Delivery.and_then_behind]
      rw [List.cons_append] at followed ⊢
      generalize longer : Line.resolve width column (work :: (rest ++ tail)) = outcome at followed
      cases followed with
      | ended =>
          rw [all_of_line longer, ← ih]
          rfl
      | drained tokens reached =>
          rw [all_of_line longer, all_of_nil]
          simp [Delivery.andThen]

theorem resolve_of_same_line
    {first second : Work}
    {rest later : Queue}
    (same : Line.resolve width column (first :: rest) =
      Line.resolve width column (second :: later)) :
    Queue.resolve width column (first :: rest) = Queue.resolve width column (second :: later) := by
  cases resolved : Line.resolve width column (second :: later) with
  | ok line =>
      rw [resolved] at same
      rw [resolve_of_line same, resolve_of_line resolved]
  | error fault =>
      rw [resolved] at same
      rw [resolve_of_fault same, resolve_of_fault resolved]

theorem resolve_concat (around : Int) (left right : Layout) (rest : Queue) :
    Queue.resolve width column (⟨around, .concat left right⟩ :: rest) =
      Queue.resolve width column (⟨around, left⟩ :: ⟨around, right⟩ :: rest) := by
  apply resolve_of_same_line
  exact OpenLine.run_of_more _ rfl

theorem resolve_indent (around amount : Int) (child : Layout) (rest : Queue) :
    Queue.resolve width column (⟨around, .indent amount child⟩ :: rest) =
      Queue.resolve width column (⟨around + amount, child⟩ :: rest) := by
  apply resolve_of_same_line
  exact OpenLine.run_of_more _ rfl

theorem resolve_break_join (width column indent : Int) (left right : Layout) :
    (Queue.resolve width column [⟨indent, .breakJoin left right⟩]).all =
      (Queue.resolve width column [⟨indent, left⟩]).all.andThen
        ⟨.line indent :: (Queue.resolve width indent [⟨indent, right⟩]).all.tokens,
          (Queue.resolve width indent [⟨indent, right⟩]).all.fault⟩ := by
  rw [Layout.breakJoin, resolve_concat]
  exact resolve_before_break (.concat .lineBreak) width column [⟨indent, left⟩]

end Queue

end Typeset

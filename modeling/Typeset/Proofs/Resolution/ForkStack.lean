import Typeset.Proofs.Resolution.Candidate

/-!
The search behind a resolved line. A line in the making stands for the candidates of its
queue and, after them, those of its forks from the innermost one outwards. Every fork
stands at the column that the tokens before it lead to, so a line that fits from the
innermost fork fits as a whole. No step changes which candidate is to be picked:
`step_keeps`. A finished line is that candidate: `Line.resolve_picks`.
-/

set_option autoImplicit false

namespace Typeset

namespace Fork

/-- The tokens of a line before the innermost of its forks. -/
def earlier (forks : List Fork) : List Token := (forks.flatMap Fork.before).reverse

theorem earlier_cons (fork : Fork) (forks : List Fork) :
    earlier (fork :: forks) = earlier forks ++ fork.before.reverse := by
  simp [earlier]

/-- Each fork stands where the texts before it end, in a line that starts at `start`. -/
def Placed (start : Int) : List Fork → Prop
  | [] => True
  | fork :: forks =>
      fork.column = start + Token.textLength (earlier (fork :: forks)) ∧
        Token.Unbroken (earlier (fork :: forks)) ∧ Placed start forks

def Clean (forks : List Fork) : Prop :=
  ∀ fork ∈ forks, fork.secondary.Clean ∧ Queue.Clean fork.rest

/-- The lines that the ways back lead to, those of the innermost fork first. -/
def candidates : List Fork → List Candidate
  | [] => []
  | fork :: forks =>
      (Queue.candidates (⟨fork.indent, fork.secondary⟩ :: fork.rest)).map
          (Candidate.after (earlier (fork :: forks))) ++
        candidates forks

theorem candidates_cons_ne_nil (fork : Fork) (forks : List Fork) :
    candidates (fork :: forks) ≠ [] := by
  have offered := Queue.candidates_ne_nil (⟨fork.indent, fork.secondary⟩ :: fork.rest)
  simp [candidates, offered]

end Fork

namespace OpenLine

/-- The lines that may come of the line: those of its queue, then those of its forks. -/
def candidates (line : OpenLine) : List Candidate :=
  (Queue.candidates line.queue).map (Candidate.after line.allTokens) ++
    Fork.candidates line.forks

/-- The line has no break yet, and it and its forks stand where their texts end. -/
structure Placed (start : Int) (line : OpenLine) : Prop where
  column : line.column = start + Token.textLength line.allTokens
  unbroken : Token.Unbroken line.allTokens
  forks : Fork.Placed start line.forks

/-- The line may have ended with a break. Its forks stand where their texts end. -/
structure Ended (start : Int) (line : OpenLine) : Prop where
  column : line.column = Token.columnAfter start line.allTokens
  single : Token.OneLine line.allTokens
  forks : Fork.Placed start line.forks

def Clean (line : OpenLine) : Prop := Queue.Clean line.queue ∧ Fork.Clean line.forks

/-- The wanted candidate is the line that is finished, or the one to pick from what the
line may still become. -/
def Keeps (width start : Int) (wanted : Option Candidate) : LineStep → Prop
  | .more next => next.Placed start ∧ Candidate.pick width start next.candidates = wanted
  | .finished done =>
      wanted = some done.candidate ∧ done.column = Token.columnAfter start done.tokens

variable {width start : Int} {line : OpenLine}

theorem all_tokens_eq (line : OpenLine) :
    line.allTokens = Fork.earlier line.forks ++ line.tokens.reverse := by
  simp [allTokens, Fork.earlier]

theorem Placed.ended (placed : line.Placed start) : line.Ended start where
  column := by rw [placed.column, Token.column_after_unbroken _ _ placed.unbroken]
  single := Token.one_line_of_unbroken _ placed.unbroken
  forks := placed.forks

/-- What was written since the innermost fork fits there exactly if the whole line fits
where it starts. -/
theorem fits_since_fork
    (ended : line.Ended start)
    (fork : Fork)
    (forks : List Fork)
    (pending : line.forks = fork :: forks) :
    Token.fits line.tokens.reverse (width - fork.column) =
      line.close.candidate.fits width start := by
  have placed := ended.forks
  rw [pending] at placed
  have whole := all_tokens_eq line
  have single := ended.single
  rw [whole] at single
  have length : Token.textLength line.allTokens =
      Token.textLength (Fork.earlier line.forks) + Token.textLength line.tokens.reverse := by
    rw [whole, Token.text_length_append]
  rw [pending] at length
  rw [Bool.eq_iff_iff, Token.fits_iff,
    Token.first_length_of_one_line _ (Token.one_line_suffix _ _ single), placed.1]
  simp only [Candidate.fits, Line.candidate, close, length, decide_eq_true_eq]
  omega

/-- Settling a line that is at its end. What it stands for is the line itself, or lines
of which none fits when it was cut. -/
theorem settle_keeps
    (ended : line.Ended start)
    (offered : List Candidate)
    (ends : offered = [line.close.candidate] ∨
      line.forks ≠ [] ∧ line.close.candidate.fits width start = false ∧
        ∀ candidate ∈ offered, candidate.fits width start = false) :
    Keeps width start
      (Candidate.pick width start (offered ++ Fork.candidates line.forks))
      (line.settle width) := by
  have finished : Keeps width start (some line.close.candidate) (.finished line.close) :=
    ⟨rfl, ended.column⟩
  unfold settle
  split
  · rename_i none
    rcases ends with only | ⟨pending, _⟩
    · rw [only, none, Fork.candidates, List.append_nil, Candidate.pick_singleton]
      exact finished
    · exact absurd none pending
  · rename_i fork forks pending
    rw [fits_since_fork ended fork forks pending]
    split
    · rename_i fitting
      rcases ends with only | ⟨_, wide, _⟩
      · rw [only, Candidate.pick_append_of_fits _ (Candidate.pick_singleton _) fitting]
        exact finished
      · rw [wide] at fitting
        cases fitting
    · rename_i wide
      have noneFits : ∀ candidate ∈ offered, candidate.fits width start = false := by
        rcases ends with only | ⟨_, _, noneFits⟩
        · intro candidate member
          rw [only, List.mem_singleton] at member
          rw [member]
          exact Bool.eq_false_iff.mpr wide
        · exact noneFits
      -- The line goes back to the innermost fork, whose candidates come next.
      have placed := ended.forks
      rw [pending] at placed ⊢
      have back : (OpenLine.mk fork.column (⟨fork.indent, fork.secondary⟩ :: fork.rest)
          fork.before forks).allTokens = Fork.earlier (fork :: forks) := by
        rw [all_tokens_eq, Fork.earlier_cons]
      refine ⟨⟨?_, ?_, placed.2.2⟩, ?_⟩
      · rw [back]
        exact placed.1
      · rw [back]
        exact placed.2.1
      · rw [Candidate.pick_append_of_none_fits noneFits (Fork.candidates_cons_ne_nil _ _),
          candidates, back, Fork.candidates]

theorem keeps_more
    (next : OpenLine)
    (placed : next.Placed start)
    (same : next.candidates = line.candidates) :
    Keeps width start (Candidate.pick width start line.candidates) (.more next) :=
  ⟨placed, by rw [same]⟩

theorem take_keeps
    (placed : line.Placed start)
    (work : Work)
    (rest : Queue)
    (waiting : line.queue = work :: rest)
    (next : LineStep)
    (taken : line.take width work rest = .ok next) :
    Keeps width start (Candidate.pick width start line.candidates) next := by
  obtain ⟨column, unbroken, forks⟩ := placed
  obtain ⟨indent, node⟩ := work
  cases node with
  | empty =>
      cases taken
      refine keeps_more _ ⟨column, unbroken, forks⟩ ?_
      simp only [candidates, waiting, Queue.candidates]
      rfl
  | text content =>
      cases taken
      have written : OpenLine.allTokens
          { line with
            column := line.column + content.length
            queue := rest
            tokens := .text content :: line.tokens } = line.allTokens ++ [.text content] := by
        simp [allTokens]
      refine keeps_more _ ⟨?_, ?_, forks⟩ ?_
      · rw [written, Token.text_length_append, column]
        simp only [Token.textLength]
        omega
      · rw [written, Token.unbroken_append]
        exact ⟨unbroken, trivial⟩
      · simp only [candidates, waiting, Queue.candidates, written, List.map_map,
          Candidate.after_after]
  | lineBreak =>
      cases taken
      have written : OpenLine.allTokens
          { line with
            column := indent
            queue := rest
            tokens := .line indent :: line.tokens } = line.allTokens ++ [.line indent] := by
        simp [allTokens]
      have ended : OpenLine.Ended start
          { line with
            column := indent
            queue := rest
            tokens := .line indent :: line.tokens } := by
        refine ⟨?_, ?_, forks⟩
        · rw [written, Token.column_after_append]
          rfl
        · rw [written]
          exact Token.one_line_append _ _ unbroken rfl
      -- Nothing before a break is left to choose.
      have only : (Queue.candidates line.queue).map (Candidate.after line.allTokens) =
          [⟨line.allTokens ++ [.line indent], rest⟩] := by
        simp [waiting, Queue.candidates, Candidate.after]
      rw [candidates, only, ← written]
      exact settle_keeps ended _ (.inl rfl)
  | indent amount child =>
      cases taken
      refine keeps_more _ ⟨column, unbroken, forks⟩ ?_
      simp only [candidates, waiting, Queue.candidates]
      rfl
  | concat left right =>
      cases taken
      refine keeps_more _ ⟨column, unbroken, forks⟩ ?_
      simp only [candidates, waiting, Queue.candidates]
      rfl
  | choice primary secondary =>
      cases taken
      -- The candidates of the secondary branch move from the queue to the new fork.
      have before : Fork.earlier
          (⟨line.column, indent, secondary, rest, line.tokens⟩ :: line.forks) =
            line.allTokens := by
        rw [Fork.earlier_cons, all_tokens_eq]
      have written : OpenLine.allTokens
          { column := line.column
            queue := ⟨indent, primary⟩ :: rest
            tokens := []
            forks := ⟨line.column, indent, secondary, rest, line.tokens⟩ :: line.forks } =
              line.allTokens := by
        simp [allTokens]
      refine keeps_more _ ⟨?_, ?_, ?_, ?_, forks⟩ ?_
      · rw [written, column]
      · rw [written]
        exact unbroken
      · rw [before, column]
      · rw [before]
        exact unbroken
      · simp only [candidates, waiting, Queue.candidates, Fork.candidates, before, written,
          List.map_append, List.append_assoc]
  | stray value => cases taken

/-- No step changes which candidate is to be picked. -/
theorem step_keeps
    (placed : line.Placed start)
    (next : LineStep)
    (stepped : line.step width = .ok next) :
    Keeps width start (Candidate.pick width start line.candidates) next := by
  unfold step at stepped
  split at stepped
  · rename_i drained
    cases stepped
    have only : (Queue.candidates line.queue).map (Candidate.after line.allTokens) =
        [line.close.candidate] := by
      simp [drained, Queue.candidates, Candidate.after, Line.candidate, close]
    rw [candidates, only]
    exact settle_keeps placed.ended _ (.inl rfl)
  · rename_i work rest waiting
    split at stepped
    · rename_i cut
      cases stepped
      simp only [isCut, Bool.and_eq_true, Bool.not_eq_true', List.isEmpty_eq_false_iff,
        decide_eq_true_eq, placed.column] at cut
      -- Texts only come in behind the cut, so no candidate of the queue fits any more.
      have wide (candidate : Candidate)
          (longer : Token.textLength line.allTokens ≤ Token.textLength candidate.tokens) :
          candidate.fits width start = false := by
        simp only [Candidate.fits, decide_eq_false_iff_not]
        omega
      refine settle_keeps placed.ended _ (.inr ⟨cut.1, wide _ (Nat.le_refl _), ?_⟩)
      intro candidate member
      obtain ⟨later, _, rfl⟩ := List.mem_map.mp member
      apply wide
      simp only [Candidate.after, Token.text_length_append]
      omega
    · exact take_keeps placed work rest waiting next stepped

theorem more_lowers
    {next : OpenLine}
    (stepped : line.step width = .ok (.more next)) :
    next.steps < line.steps :=
  step_lowers width line _ stepped

theorem run_keeps
    (line : OpenLine)
    (placed : line.Placed start)
    (done : Line)
    (resolved : line.run width = .ok done) :
    Candidate.pick width start line.candidates = some done.candidate ∧
      done.column = Token.columnAfter start done.tokens := by
  rw [run] at resolved
  split at resolved
  · cases resolved
  · rename_i last stepped
    cases resolved
    exact step_keeps placed _ stepped
  · rename_i next stepped
    have kept := step_keeps placed _ stepped
    have less := more_lowers stepped
    rw [← kept.2]
    exact run_keeps next kept.1 done resolved
termination_by line.steps

def Leaves : LineStep → Prop
  | .more next => next.Clean
  | .finished done => Queue.Clean done.rest

theorem settle_leaves (clean : line.Clean) : Leaves (line.settle width) := by
  obtain ⟨queue, forks⟩ := clean
  unfold settle
  split
  · exact queue
  · rename_i fork others pending
    rw [pending] at forks
    obtain ⟨back, others⟩ := List.forall_mem_cons.mp forks
    split
    · exact queue
    · exact ⟨(Queue.clean_cons _ _).mpr back, others⟩

theorem step_leaves (width : Int) (clean : line.Clean) :
    ∃ next, line.step width = .ok next ∧ Leaves next := by
  unfold step
  split
  · exact ⟨_, rfl, settle_leaves clean⟩
  · rename_i work rest waiting
    obtain ⟨queue, forks⟩ := clean
    rw [waiting] at queue
    obtain ⟨first, later⟩ := (Queue.clean_cons _ _).mp queue
    split
    · refine ⟨_, rfl, settle_leaves ⟨?_, forks⟩⟩
      rwa [waiting]
    · obtain ⟨indent, node⟩ := work
      cases node with
      | empty => exact ⟨_, rfl, later, forks⟩
      | text content => exact ⟨_, rfl, later, forks⟩
      | lineBreak => exact ⟨_, rfl, settle_leaves ⟨later, forks⟩⟩
      | indent amount child =>
          exact ⟨_, rfl, (Queue.clean_cons _ _).mpr ⟨first, later⟩, forks⟩
      | concat left right =>
          have rightFirst := (Queue.clean_cons ⟨indent, right⟩ rest).mpr ⟨first.2, later⟩
          exact ⟨_, rfl, (Queue.clean_cons _ _).mpr ⟨first.1, rightFirst⟩, forks⟩
      | choice primary secondary =>
          refine ⟨_, rfl, (Queue.clean_cons _ _).mpr ⟨first.1, later⟩, ?_⟩
          exact List.forall_mem_cons.mpr ⟨⟨first.2, later⟩, forks⟩
      | stray value => exact first.elim

theorem run_of_finished
    (done : Line)
    (stepped : line.step width = .ok (.finished done)) :
    line.run width = .ok done := by
  rw [run]
  split <;> simp_all

theorem run_of_more
    (next : OpenLine)
    (stepped : line.step width = .ok (.more next)) :
    line.run width = next.run width := by
  rw [run]
  split <;> simp_all

/-- Without strays every line is finished, and what is left has none either. -/
theorem run_finishes (width : Int) (line : OpenLine) (clean : line.Clean) :
    ∃ done, line.run width = .ok done ∧ Queue.Clean done.rest := by
  obtain ⟨next, stepped, leaves⟩ := step_leaves width clean
  cases next with
  | finished done => exact ⟨done, run_of_finished done stepped, leaves⟩
  | more next =>
      have less := more_lowers stepped
      obtain ⟨done, resolved, rest⟩ := run_finishes width next leaves
      rw [run_of_more next stepped]
      exact ⟨done, resolved, rest⟩
termination_by line.steps

theorem start_tokens (column : Int) (queue : Queue) : (OpenLine.start column queue).allTokens = [] := by
  simp [OpenLine.start, allTokens]

theorem start_placed (column : Int) (queue : Queue) : (OpenLine.start column queue).Placed column := by
  refine ⟨?_, ?_, trivial⟩
  · rw [start_tokens]
    simp [OpenLine.start, Token.textLength]
  · rw [start_tokens]
    trivial

theorem start_candidates (column : Int) (queue : Queue) :
    (OpenLine.start column queue).candidates = Queue.candidates queue := by
  rw [candidates, start_tokens]
  simp only [OpenLine.start, Fork.candidates, List.append_nil]
  exact List.map_id _

end OpenLine

/-- A line that is resolved at all is the candidate to pick, and it ends at the column that
its tokens lead to. -/
theorem Line.picked_of_resolved
    {width column : Int}
    {queue : Queue}
    {line : Line}
    (resolved : Line.resolve width column queue = .ok line) :
    Candidate.pick width column (Queue.candidates queue) = some line.candidate ∧
      line.column = Token.columnAfter column line.tokens := by
  have kept := OpenLine.run_keeps _ (OpenLine.start_placed column queue) line resolved
  rwa [OpenLine.start_candidates] at kept

/-- Without strays every line is resolved, and what is left has none either. -/
theorem Line.resolve_picks
    (width column : Int)
    (queue : Queue)
    (clean : Queue.Clean queue) :
    ∃ line, Line.resolve width column queue = .ok line ∧
      Candidate.pick width column (Queue.candidates queue) = some line.candidate ∧
      line.column = Token.columnAfter column line.tokens ∧ Queue.Clean line.rest := by
  obtain ⟨line, resolved, rest⟩ := OpenLine.run_finishes width (OpenLine.start column queue)
    ⟨clean, fun fork member => absurd member List.not_mem_nil⟩
  obtain ⟨picked, ending⟩ := Line.picked_of_resolved resolved
  exact ⟨line, resolved, picked, ending, rest⟩

end Typeset

import Typeset.Proofs.Resolution.ForkStack
import Typeset.Resolution.Stream

/-!
The lines of the output. The stream of a queue is made of resolved lines, each starting
where the one before it left off, and each the first of its candidates that fits. So a
line is too wide only where every combination of branches is:
`line_is_first_fitting_candidate`.
-/

set_option autoImplicit false

namespace Typeset

/-- A line of the output, with the column and the queue that it was resolved from. -/
structure OutputLine where
  start : Int
  waiting : Queue
  line : Line

/-- A text, a space or a break, a longer or a shorter text, and one more text. -/
def Layout.lookAhead : Layout :=
  .concat (.text "a") (.concat (.choice (.text " ") .lineBreak)
    (.concat (.choice (.text "bc") (.text "b")) (.text "d")))

namespace Queue

/-- The lines of a queue that starts at a column, up to the first fault. -/
def lines (width column : Int) (queue : Queue) : List OutputLine :=
  match queue with
  | [] => []
  | work :: rest =>
      match _resolved : Line.resolve width column (work :: rest) with
      | .error _ => []
      | .ok line => ⟨column, work :: rest, line⟩ :: lines width line.column line.rest
termination_by Queue.steps queue
decreasing_by exact Line.rest_steps_lt width column work rest line _resolved

variable {width column : Int} {work : Work} {rest : Queue} {line : Line}

theorem resolve_of_line (resolved : Line.resolve width column (work :: rest) = .ok line) :
    Queue.resolve width column (work :: rest) =
      .line line.tokens fun _ => Queue.resolve width line.column line.rest := by
  rw [Queue.resolve]
  split <;> simp_all

theorem lines_of_line (resolved : Line.resolve width column (work :: rest) = .ok line) :
    lines width column (work :: rest) =
      ⟨column, work :: rest, line⟩ :: lines width line.column line.rest := by
  rw [lines]
  split <;> simp_all

/-- Induction on the lines of a queue, which may have strays: what holds of the queue that
a line leaves holds of the queue that it was resolved from. -/
theorem delivery_induction
    (width : Int)
    {motive : Int → Queue → Prop}
    (nil : ∀ column, motive column [])
    (failed : ∀ column work rest fault,
      Line.resolve width column (work :: rest) = .error fault → motive column (work :: rest))
    (line : ∀ column work rest line,
      Line.resolve width column (work :: rest) = .ok line →
      motive line.column line.rest →
      motive column (work :: rest))
    (column : Int)
    (queue : Queue) :
    motive column queue := by
  induction measured : steps queue using Nat.strongRecOn generalizing column queue with
  | ind bound below =>
      subst measured
      cases queue with
      | nil => exact nil column
      | cons work rest =>
          cases resolved : Line.resolve width column (work :: rest) with
          | error fault => exact failed column work rest fault resolved
          | ok done =>
              have less := Line.rest_steps_lt width column work rest done resolved
              exact line column work rest done resolved
                (below _ less done.column done.rest rfl)

/-- Induction on the lines of a queue without strays. Each line is the candidate to pick,
and what holds of the queue that it leaves holds of the queue that it was resolved from. -/
theorem line_induction
    (width : Int)
    {motive : Int → (queue : Queue) → Clean queue → Prop}
    (nil : ∀ column clean, motive column [] clean)
    (line : ∀ column work rest line clean left,
      Line.resolve width column (work :: rest) = .ok line →
      Candidate.pick width column (candidates (work :: rest)) = some line.candidate →
      line.column = Token.columnAfter column line.tokens →
      motive line.column line.rest left →
      motive column (work :: rest) clean)
    (column : Int)
    (queue : Queue)
    (clean : Clean queue) :
    motive column queue clean := by
  induction column, queue using delivery_induction width with
  | nil column => exact nil column clean
  | failed column work rest fault failed =>
      obtain ⟨done, resolved, _⟩ := Line.resolve_picks width column (work :: rest) clean
      rw [failed] at resolved
      cases resolved
  | line column work rest done resolved ih =>
      obtain ⟨other, same, picked, ending, left⟩ :=
        Line.resolve_picks width column (work :: rest) clean
      rw [resolved] at same
      cases same
      exact line column work rest done clean left resolved picked ending (ih left)

theorem all_tokens_of_lines
    (width column : Int)
    (queue : Queue)
    (clean : Clean queue) :
    (Queue.resolve width column queue).all =
      ⟨(lines width column queue).flatMap fun output => output.line.tokens, none⟩ := by
  induction column, queue, clean using line_induction width with
  | nil column clean =>
      rw [Queue.resolve, lines]
      rfl
  | line column work rest line clean left resolved picked ending ih =>
      rw [resolve_of_line resolved, lines_of_line resolved, TokenStream.all, ih]
      rfl

/-- A picked line that is too wide was the last resort. -/
theorem last_resort_of_wide
    {width column : Int}
    {queue : Queue}
    {chosen : Candidate}
    (picked : Candidate.pick width column (candidates queue) = some chosen)
    (wide : width < column + Token.textLength chosen.tokens) :
    (∀ candidate ∈ candidates queue,
        width < column + Token.textLength candidate.tokens) ∧
      chosen = lastResort queue := by
  have tooWide (candidate : Candidate) :
      candidate.fits width column = false ↔
        width < column + Token.textLength candidate.tokens := by
    simp [Candidate.fits]
  have noneFits := Candidate.none_fits_of_pick picked ((tooWide chosen).mpr wide)
  constructor
  · intro candidate member
    exact (tooWide candidate).mp (noneFits candidate member)
  · rw [Candidate.pick_of_none_fits noneFits, last_candidate] at picked
    exact (Option.some.inj picked).symm

/-- A resolved line is the first candidate that fits, or the last one when none does, and
the last one takes every secondary branch. So a line of the output is wider than asked for
only if all combinations of branches are, and then it takes no primary branch. -/
theorem line_is_first_fitting_candidate
    (width column : Int)
    (queue : Queue)
    (clean : Clean queue) :
    (∃ line, Line.resolve width column queue = .ok line ∧
        ((candidates queue).find? fun candidate =>
            decide (column + Token.textLength candidate.tokens ≤ width)).or
          (candidates queue).getLast? = some ⟨line.tokens, line.rest⟩ ∧
        (candidates queue).getLast? = some (lastResort queue)) ∧
      (Queue.resolve width column queue).all =
        ⟨(lines width column queue).flatMap fun output => output.line.tokens, none⟩ ∧
      ∀ output ∈ lines width column queue,
        Line.resolve width output.start output.waiting = .ok output.line ∧
          (width < output.start + Token.textLength output.line.tokens →
            (∀ candidate ∈ candidates output.waiting,
                width < output.start + Token.textLength candidate.tokens) ∧
              (⟨output.line.tokens, output.line.rest⟩ : Candidate) =
                lastResort output.waiting) := by
  refine ⟨?_, all_tokens_of_lines width column queue clean, ?_⟩
  · obtain ⟨line, resolved, picked, _, _⟩ := Line.resolve_picks width column queue clean
    exact ⟨line, resolved, picked, last_candidate queue⟩
  · induction column, queue, clean using line_induction width with
    | nil column clean =>
        intro output member
        rw [lines] at member
        cases member
    | line column work rest line clean left resolved picked ending ih =>
        intro output member
        rw [lines_of_line resolved] at member
        rcases List.mem_cons.mp member with rfl | later
        · exact ⟨resolved, last_resort_of_wide picked⟩
        · exact ih output later

/-- Four columns are too few for the longer text, but not for the shorter one. -/
theorem look_ahead_line_at_four :
    Clean [⟨-1, .lookAhead⟩] ∧
      ∃ line, Line.resolve 4 0 [⟨-1, .lookAhead⟩] = .ok line ∧
        line.tokens = [.text "a", .text " ", .text "b", .text "d"] ∧ line.rest = [] := by
  have clean : Clean [⟨-1, .lookAhead⟩] := clean_singleton (-1) (by decide)
  obtain ⟨⟨line, resolved, picked, _⟩, _⟩ :=
    line_is_first_fitting_candidate 4 0 [⟨-1, .lookAhead⟩] clean
  have second : ((candidates [⟨-1, .lookAhead⟩]).find? fun candidate =>
      decide ((0 : Int) + Token.textLength candidate.tokens ≤ 4)).or
        (candidates [⟨-1, .lookAhead⟩]).getLast? =
      some ⟨[.text "a", .text " ", .text "b", .text "d"], []⟩ := by
    simp only [candidates, Layout.lookAhead]
    rfl
  rw [second] at picked
  obtain ⟨tokens, rest⟩ := Candidate.mk.inj (Option.some.inj picked)
  exact ⟨clean, line, resolved, tokens.symm, rest.symm⟩

end Queue

end Typeset

import Mathlib.Data.List.Chain
import Typeset.Proofs.Resolution.Delivery

/-!
The shape of a resolved line. It has one break, which is its last token and at whose indentation
the next line starts, or it has none, and then nothing is left and it ends where its texts do:
`Line.shaped_of_resolved`. So a stream that is split behind its breaks falls into the lines that
were resolved one after another, the last one being what stands behind the last break:
`Queue.lines_split_at_breaks`.
-/

set_option autoImplicit false

namespace Typeset

/-- The lines that end with a break, and the tokens behind the last break. -/
def Token.splitAtBreaks : List Token → List (List Token) × List Token
  | [] => ([], [])
  | .line indent :: rest =>
      let (broken, tail) := splitAtBreaks rest
      ([.line indent] :: broken, tail)
  | .text content :: rest =>
      match splitAtBreaks rest with
      | ([], tail) => ([], .text content :: tail)
      | (first :: others, tail) => ((.text content :: first) :: others, tail)

/-- A line that starts at the column ends with its only break, or it is all that there was to
resolve. -/
inductive Line.Shaped (column : Int) : Line → Prop where
  | broken {texts : List Token} (indent : Int) (rest : Queue) :
      Token.Unbroken texts → Shaped column ⟨texts ++ [.line indent], indent, rest⟩
  | drained {texts : List Token} :
      Token.Unbroken texts → Shaped column ⟨texts, column + Token.textLength texts, []⟩

namespace OutputLine

/-- The next line takes over the queue and starts at the indentation of the break before it. -/
def Follows (previous next : OutputLine) : Prop :=
  next.waiting = previous.line.rest ∧
    ∃ texts indent, previous.line.tokens = texts ++ [.line indent] ∧ next.start = indent

/-- The lines are resolved one after another, from the queue to its end. -/
structure Successive (width column : Int) (queue : Queue) (outputs : List OutputLine) : Prop where
  resolved : ∀ output ∈ outputs,
    Line.resolve width output.start output.waiting = .ok output.line
  shaped : ∀ output ∈ outputs, output.line.Shaped output.start
  empty : outputs = [] ↔ queue = []
  first : ∀ output ∈ outputs.head?, output.start = column ∧ output.waiting = queue
  follows : outputs.IsChain Follows
  last : ∀ output ∈ outputs.getLast?, output.line.rest = []

/-- The lines are those that end with a break, and one more for what stands behind the last
break unless that break was the end of it all. The last line has no token if a queue was left
there that writes none. -/
inductive SplitInto (broken : List (List Token)) (tail : List Token) (outputs : List OutputLine) :
    Prop where
  | broken :
      outputs.map (fun output => output.line.tokens) = broken → tail = [] →
        SplitInto broken tail outputs
  | drained :
      outputs.map (fun output => output.line.tokens) = broken ++ [tail] → Token.Unbroken tail →
        SplitInto broken tail outputs

end OutputLine

namespace Token

theorem split_unbroken {texts : List Token} (unbroken : Unbroken texts) :
    splitAtBreaks texts = ([], texts) := by
  induction texts with
  | nil => rfl
  | cons token rest ih =>
      cases token with
      | text content => rw [splitAtBreaks, ih unbroken]
      | line indent => exact unbroken.elim

theorem split_behind_break
    {texts : List Token}
    (unbroken : Unbroken texts)
    (indent : Int)
    (rest : List Token) :
    splitAtBreaks (texts ++ .line indent :: rest) =
      ((texts ++ [.line indent]) :: (splitAtBreaks rest).1, (splitAtBreaks rest).2) := by
  induction texts with
  | nil => rfl
  | cons token texts ih =>
      cases token with
      | text content => rw [List.cons_append, splitAtBreaks, ih unbroken, List.cons_append]
      | line indent => exact unbroken.elim

end Token

/-- Whichever way a line ends, it has the column and the queue of its own tokens, and nothing
of a line that was cut or gone back from. -/
theorem Line.shaped_of_resolved
    {width column : Int}
    {queue : Queue}
    {line : Line}
    (resolved : Line.resolve width column queue = .ok line) :
    line.Shaped column := by
  have complete := Line.complete_of_resolved resolved
  have ending := (Line.picked_of_resolved resolved).2
  obtain ⟨tokens, reached, rest⟩ := line
  simp only at complete ending
  rcases complete.unbroken_or_break with ⟨unbroken, rfl⟩ | ⟨texts, indent, unbroken, rfl⟩
  · rw [ending, Token.column_after_unbroken _ _ unbroken]
    exact .drained unbroken
  · rw [ending, Token.column_after_append]
    exact .broken indent rest unbroken

namespace Queue

theorem lines_of_nil (width column : Int) : lines width column [] = [] := by rw [lines]

theorem lines_successive
    (width column : Int)
    (queue : Queue)
    (clean : Clean queue) :
    OutputLine.Successive width column queue (lines width column queue) := by
  induction column, queue, clean using line_induction width with
  | nil column clean =>
      rw [lines_of_nil]
      exact ⟨by simp, by simp, by simp, by simp, .nil, by simp⟩
  | line column work rest line clean left resolved picked ending ih =>
      have shaped := Line.shaped_of_resolved resolved
      rw [lines_of_line resolved]
      refine ⟨?_, ?_, by simp, by simp, ?_, ?_⟩
      · exact List.forall_mem_cons.mpr ⟨resolved, ih.resolved⟩
      · exact List.forall_mem_cons.mpr ⟨shaped, ih.shaped⟩
      · refine List.isChain_cons.mpr ⟨?_, ih.follows⟩
        intro next member
        obtain ⟨start, waiting⟩ := ih.first next member
        cases shaped with
        | broken indent rest unbroken => exact ⟨waiting, _, indent, rfl, start⟩
        | drained unbroken =>
            rw [lines_of_nil] at member
            cases member
      · intro output member
        cases later : lines width line.column line.rest with
        | nil =>
            rw [later] at member
            cases member
            exact ih.empty.mp later
        | cons next others =>
            rw [later, List.getLast?_cons_cons] at member
            exact ih.last output (by rwa [later])

theorem lines_split
    (width column : Int)
    (queue : Queue)
    (clean : Clean queue) :
    let tokens := (lines width column queue).flatMap fun output => output.line.tokens
    OutputLine.SplitInto (Token.splitAtBreaks tokens).1 (Token.splitAtBreaks tokens).2
      (lines width column queue) := by
  induction column, queue, clean using line_induction width with
  | nil column clean =>
      rw [lines_of_nil]
      exact .broken rfl rfl
  | line column work rest line clean left resolved picked ending ih =>
      rw [lines_of_line resolved]
      cases Line.shaped_of_resolved resolved with
      | drained unbroken =>
          rw [lines_of_nil]
          simp only [List.flatMap_cons, List.flatMap_nil, List.append_nil,
            Token.split_unbroken unbroken]
          exact .drained rfl unbroken
      | broken indent rest unbroken =>
          simp only [List.flatMap_cons, List.append_assoc, List.singleton_append,
            Token.split_behind_break unbroken]
          cases ih with
          | broken same ends =>
              refine .broken ?_ ends
              rw [List.map_cons, same]
          | drained same whole =>
              refine .drained ?_ whole
              rw [List.map_cons, same, List.cons_append]

/-- Without strays every line is resolved. If it has a break, that is its only one and its last
token, and the column after it is the indentation, below zero or not. If it has none, nothing
is left and the column is as far behind the first one as its texts are long. The tokens of a
queue, split behind each break, are the lines that are resolved one after another, each but the
first from the indentation of the break before it. -/
theorem lines_split_at_breaks
    (width column : Int)
    (queue : Queue)
    (clean : Clean queue) :
    (∃ line, Line.resolve width column queue = .ok line ∧ line.Shaped column) ∧
      ∃ tokens, (Queue.resolve width column queue).all = ⟨tokens, none⟩ ∧
        OutputLine.Successive width column queue (lines width column queue) ∧
        OutputLine.SplitInto (Token.splitAtBreaks tokens).1 (Token.splitAtBreaks tokens).2
          (lines width column queue) := by
  obtain ⟨line, resolved, _⟩ := Line.resolve_picks width column queue clean
  refine ⟨⟨line, resolved, Line.shaped_of_resolved resolved⟩, _,
    all_tokens_of_lines width column queue clean, lines_successive width column queue clean, ?_⟩
  exact lines_split width column queue clean

/-- Three columns are too few for one line. The second one starts to the left of the first
column, and so both of its texts fit. -/
theorem look_ahead_split_at_three :
    Clean [⟨-1, .lookAhead⟩] ∧
      (Queue.resolve 3 0 [⟨-1, .lookAhead⟩]).all =
        ⟨[.text "a", .line (-1), .text "bc", .text "d"], none⟩ ∧
      (lines 3 0 [⟨-1, .lookAhead⟩]).map (fun output => output.line.tokens) =
        [[.text "a", .line (-1)], [.text "bc", .text "d"]] ∧
      (lines 3 0 [⟨-1, .lookAhead⟩]).IsChain OutputLine.Follows := by
  have clean : Clean [⟨-1, .lookAhead⟩] := clean_singleton (-1) (by decide)
  have whole : (Queue.resolve 3 0 [⟨-1, .lookAhead⟩]).all =
      ⟨[.text "a", .line (-1), .text "bc", .text "d"], none⟩ := by decide +kernel
  obtain ⟨_, tokens, delivered, successive, split⟩ :=
    lines_split_at_breaks 3 0 [⟨-1, .lookAhead⟩] clean
  rw [whole] at delivered
  obtain ⟨rfl, _⟩ := Delivery.mk.inj delivered
  refine ⟨clean, whole, ?_, successive.follows⟩
  cases split with
  | broken _ ends => cases ends
  | drained same _ => exact same

end Queue

end Typeset

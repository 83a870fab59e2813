import Typeset.Proofs.Resolution.Lines

/-!
The tokens of a queue, said by recursion. At a choice both continuations are resolved to
their ends, and the one with the primary branch is kept if its first line fits. The
resolver finds the same tokens line by line, without ever resolving a second line for the
sake of the first: `resolve_eq_greedy`.
-/

set_option autoImplicit false

namespace Typeset

namespace Queue

/-- The tokens of a queue whose first one stands at the column. A stray counts as nothing
here. -/
def greedy (width column : Int) (queue : Queue) : List Token :=
  match queue with
  | [] => []
  | ⟨_, .empty⟩ :: rest => greedy width column rest
  | ⟨_, .text content⟩ :: rest =>
      .text content :: greedy width (column + content.length) rest
  | ⟨indent, .lineBreak⟩ :: rest => .line indent :: greedy width indent rest
  | ⟨indent, .indent amount child⟩ :: rest =>
      greedy width column (⟨indent + amount, child⟩ :: rest)
  | ⟨indent, .concat left right⟩ :: rest =>
      greedy width column (⟨indent, left⟩ :: ⟨indent, right⟩ :: rest)
  | ⟨indent, .choice primary secondary⟩ :: rest =>
      let preferred := greedy width column (⟨indent, primary⟩ :: rest)
      if Token.fits preferred (width - column) then preferred
      else greedy width column (⟨indent, secondary⟩ :: rest)
  | ⟨_, .stray _⟩ :: rest => greedy width column rest
termination_by Queue.steps queue
decreasing_by
  all_goals
    simp only [Queue.steps, Layout.steps]
    omega

theorem first_length_of_complete
    (width column : Int)
    (tokens : List Token)
    (rest : Queue)
    (complete : Candidate.Complete tokens rest) :
    Token.firstLength (tokens ++ greedy width column rest) = Token.textLength tokens := by
  induction tokens with
  | nil =>
      have drained : rest = [] := complete
      rw [drained, greedy]
      rfl
  | cons token later ih =>
      cases token with
      | text content =>
          simp only [List.cons_append, Token.firstLength, Token.textLength, ih complete]
      | line indent =>
          have last : later = [] := complete
          simp [last, Token.firstLength, Token.textLength]

/-- The recursion writes the candidate to pick first and goes on with what that leaves. -/
theorem greedy_of_pick
    (width column : Int)
    (queue : Queue)
    (chosen : Candidate)
    (picked : Candidate.pick width column (candidates queue) = some chosen) :
    greedy width column queue =
      chosen.tokens ++ greedy width (Token.columnAfter column chosen.tokens) chosen.rest := by
  induction queue using work_induction generalizing column chosen with
  | nil =>
      rw [candidates] at picked
      have only := List.mem_singleton.mp (Candidate.pick_mem picked)
      rw [only]
      simp [greedy]
  | text indent content rest ih =>
      rw [candidates, Candidate.pick_map_after] at picked
      obtain ⟨later, laterPicked, rfl⟩ := Option.map_eq_some_iff.mp picked
      rw [greedy, ih _ _ (by simpa [Token.textLength] using laterPicked)]
      rfl
  | lineBreak indent rest ih =>
      rw [candidates] at picked
      have only := List.mem_singleton.mp (Candidate.pick_mem picked)
      rw [only, greedy]
      rfl
  | choice indent primary secondary rest primaryStep secondaryStep =>
      obtain ⟨preferred, preferredPicked⟩ := Candidate.pick_exists width column
        (candidates_ne_nil (⟨indent, primary⟩ :: rest))
      have complete := complete_of_mem_candidates _ _ (Candidate.pick_mem preferredPicked)
      have whole := primaryStep column preferred preferredPicked
      -- The lines behind the first one make no difference to whether it fits.
      have sameFit : Token.fits (greedy width column (⟨indent, primary⟩ :: rest))
          (width - column) = preferred.fits width column := by
        rw [whole, Bool.eq_iff_iff, Token.fits_iff,
          first_length_of_complete _ _ _ _ complete]
        simp only [Candidate.fits, decide_eq_true_eq]
        omega
      rw [candidates] at picked
      simp only [greedy, sameFit]
      split
      · rename_i fitting
        rw [Candidate.pick_append_of_fits _ preferredPicked fitting] at picked
        obtain rfl := Option.some.inj picked
        exact whole
      · rename_i wide
        have noneFits := Candidate.none_fits_of_pick preferredPicked
          (Bool.eq_false_iff.mpr wide)
        rw [Candidate.pick_append_of_none_fits noneFits (candidates_ne_nil _)] at picked
        exact secondaryStep column chosen picked
  | empty indent rest ih =>
      rw [candidates] at picked
      rw [greedy, ih column chosen picked]
  | indent indent amount child rest ih =>
      rw [candidates] at picked
      rw [greedy, ih column chosen picked]
  | concat indent left right rest ih =>
      rw [candidates] at picked
      rw [greedy, ih column chosen picked]
  | stray indent value rest ih =>
      rw [candidates] at picked
      rw [greedy, ih column chosen picked]

theorem resolve_all_eq
    (width column : Int)
    (queue : Queue)
    (clean : Clean queue) :
    (Queue.resolve width column queue).all = ⟨greedy width column queue, none⟩ := by
  induction column, queue, clean using line_induction width with
  | nil column clean =>
      rw [Queue.resolve, greedy]
      rfl
  | line column work rest line clean left resolved picked ending ih =>
      rw [resolve_of_line resolved, TokenStream.all, ih, greedy_of_pick _ _ _ _ picked, ending]
      rfl

end Queue

/-- The whole token list of a layout is the one that the recursion gives. -/
theorem Layout.resolve_eq_greedy
    (layout : Layout)
    (clean : layout.Clean)
    (width column : Int) :
    (layout.resolve width column).all =
      ⟨Queue.greedy width column [⟨0, layout⟩], none⟩ := by
  exact Queue.resolve_all_eq width column [⟨0, layout⟩] (Queue.clean_singleton 0 clean)

/-- The space leaves too little room even for the shorter text. Behind the break, which
stands one column to the left, the longer one fits. -/
theorem Layout.look_ahead_tokens_at_three :
    (Layout.indent (-1) .lookAhead).Clean ∧
      ((Layout.indent (-1) .lookAhead).resolve 3 0).all =
        ⟨[.text "a", .line (-1), .text "bc", .text "d"], none⟩ := by
  have clean : (Layout.indent (-1) .lookAhead).Clean := by decide
  have written : Queue.greedy 3 0 [⟨0, .indent (-1) .lookAhead⟩] =
      [.text "a", .line (-1), .text "bc", .text "d"] := by
    simp only [Queue.greedy, lookAhead]
    rfl
  refine ⟨clean, ?_⟩
  rw [resolve_eq_greedy _ clean, written]

end Typeset

import Typeset.Proofs.Resolution.Greedy

/-!
Narrower widths. More room never takes a fitting line away: what fits at some width has a
fitting line at every larger one. So a rendering that leaves room unused is the rendering
for the room that it does use, as every branch that was turned away is turned away there
too: `resolve_squeezed`.
-/

set_option autoImplicit false

namespace Typeset

namespace Token

/-- The widths of the lines. A line starts at the column or at the indentation of its break,
and its texts follow. Behind the last break there is a line too, be it an empty one. -/
def lineWidths (start : Int) : List Token → List Int
  | [] => [start]
  | .text content :: rest => lineWidths (start + content.length) rest
  | .line indent :: rest => start :: lineWidths indent rest

theorem first_width_mem (start : Int) (tokens : List Token) :
    start + firstLength tokens ∈ lineWidths start tokens := by
  induction tokens generalizing start with
  | nil => simp [lineWidths, firstLength]
  | cons token rest ih =>
      cases token with
      | text content =>
          have reached := ih (start + content.length)
          rw [Int.add_assoc] at reached
          simpa only [lineWidths, firstLength, Int.natCast_add] using reached
      | line indent => simp [lineWidths, firstLength]

theorem fits_of_widths_le
    {start bound : Int}
    {tokens : List Token}
    (within : ∀ reach ∈ lineWidths start tokens, reach ≤ bound) :
    fits tokens (bound - start) = true := by
  rw [fits_iff]
  have first := within _ (first_width_mem start tokens)
  omega

end Token

namespace Queue

variable {narrow width : Int}

/-- A queue whose first line fits at some width has a first line that fits at every larger
one. The two lines need not be the same. -/
theorem first_line_fits_wider
    (narrower : narrow ≤ width)
    (column : Int)
    (queue : Queue)
    (fitting : Token.fits (greedy narrow column queue) (narrow - column) = true) :
    Token.fits (greedy width column queue) (width - column) = true := by
  induction queue using work_induction generalizing column with
  | nil =>
      rw [greedy, Token.fits_iff] at fitting ⊢
      omega
  | text indent content rest ih =>
      have later := ih (column + content.length)
      rw [greedy, Token.fits_iff] at fitting ⊢
      simp only [Token.fits_iff, Token.firstLength] at fitting later ⊢
      omega
  | lineBreak indent rest ih =>
      rw [greedy, Token.fits_iff] at fitting ⊢
      simp only [Token.firstLength] at fitting ⊢
      omega
  | choice indent primary secondary rest primaryStep secondaryStep =>
      simp only [greedy] at fitting ⊢
      by_cases preferred :
          Token.fits (greedy width column (⟨indent, primary⟩ :: rest)) (width - column) = true
      · rw [if_pos preferred]
        exact preferred
      · have turnedAway := mt (primaryStep column) preferred
        rw [if_neg turnedAway] at fitting
        rw [if_neg preferred]
        exact secondaryStep column fitting
  | empty indent rest ih =>
      rw [greedy] at fitting ⊢
      exact ih column fitting
  | indent indent amount child rest ih =>
      rw [greedy] at fitting ⊢
      exact ih column fitting
  | concat indent left right rest ih =>
      rw [greedy] at fitting ⊢
      exact ih column fitting
  | stray indent value rest ih =>
      rw [greedy] at fitting ⊢
      exact ih column fitting

theorem greedy_squeezed
    (narrower : narrow ≤ width)
    (column : Int)
    (queue : Queue)
    (within : ∀ reach ∈ Token.lineWidths column (greedy width column queue), reach ≤ narrow) :
    greedy narrow column queue = greedy width column queue := by
  induction queue using work_induction generalizing column with
  | nil => rw [greedy, greedy]
  | text indent content rest ih =>
      rw [greedy] at within ⊢
      rw [greedy, ih _ within]
  | lineBreak indent rest ih =>
      rw [greedy] at within ⊢
      rw [greedy, ih _ (List.forall_mem_cons.mp within).2]
  | choice indent primary secondary rest primaryStep secondaryStep =>
      simp only [greedy] at within ⊢
      by_cases preferred :
          Token.fits (greedy width column (⟨indent, primary⟩ :: rest)) (width - column) = true
      · rw [if_pos preferred] at within ⊢
        rw [primaryStep column within, if_pos (Token.fits_of_widths_le within)]
      · -- The primary branch had more room before, and even that was too little.
        have turnedAway := mt (first_line_fits_wider narrower column _) preferred
        rw [if_neg preferred] at within ⊢
        rw [if_neg turnedAway, secondaryStep column within]
  | empty indent rest ih =>
      rw [greedy] at within ⊢
      rw [greedy, ih column within]
  | indent indent amount child rest ih =>
      rw [greedy] at within ⊢
      rw [greedy, ih column within]
  | concat indent left right rest ih =>
      rw [greedy] at within ⊢
      rw [greedy, ih column within]
  | stray indent value rest ih =>
      rw [greedy] at within ⊢
      rw [greedy, ih column within]

end Queue

namespace Layout

/-- When no line of the rendering for a width is wider than some narrower width, it is the
rendering for the narrower width as well. -/
theorem resolve_squeezed
    (layout : Layout)
    (clean : layout.Clean)
    (column narrow width : Int)
    (narrower : narrow ≤ width) :
    ∃ tokens, (layout.resolve width column).all = ⟨tokens, none⟩ ∧
      ((∀ reach ∈ Token.lineWidths column tokens, reach ≤ narrow) →
        (layout.resolve narrow column).all = ⟨tokens, none⟩) := by
  have single := Queue.clean_singleton 0 clean
  have wide := Queue.resolve_all_eq width column _ single
  have squeezed := Queue.resolve_all_eq narrow column _ single
  refine ⟨_, wide, ?_⟩
  intro within
  rw [Queue.greedy_squeezed narrower column _ within] at squeezed
  exact squeezed

/-- The break comes at three columns, and its line takes two. -/
theorem look_ahead_squeezed_to_two :
    (Layout.indent (-1) .lookAhead).Clean ∧ (2 : Int) ≤ 3 ∧
      (∀ reach ∈ Token.lineWidths 0 [.text "a", .line (-1), .text "bc", .text "d"],
        reach ≤ 2) ∧
      ((Layout.indent (-1) .lookAhead).resolve 2 0).all =
        ⟨[.text "a", .line (-1), .text "bc", .text "d"], none⟩ := by
  have clean : (Layout.indent (-1) .lookAhead).Clean := by decide
  have within : ∀ reach ∈ Token.lineWidths 0 [.text "a", .line (-1), .text "bc", .text "d"],
      reach ≤ 2 := by decide
  have wide : ((Layout.indent (-1) .lookAhead).resolve 3 0).all =
      ⟨[.text "a", .line (-1), .text "bc", .text "d"], none⟩ := by decide +kernel
  obtain ⟨tokens, delivered, narrow⟩ := resolve_squeezed _ clean 0 2 3 (by decide)
  rw [wide] at delivered
  cases delivered
  exact ⟨clean, by decide, within, narrow within⟩

end Layout

end Typeset

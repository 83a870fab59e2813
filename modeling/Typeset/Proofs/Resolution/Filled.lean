import Mathlib.Data.List.Forall2
import Typeset.Proofs.Resolution.ForkStack

/-!
Layouts in place of strays. A line that is resolved without a fault has met no stray on its
way, neither in the branches that it took nor in those that it tried and dropped. So it is
the same line when other layouts stand where the strays are, whatever these may be. The two
lines run in step, with the same tokens and columns in the line and in all its forks.
-/

set_option autoImplicit false

namespace Typeset

/-- Some layout stands for each stray, in every place another one if need be. All else is
as it was. -/
inductive Layout.Filled : Layout → Layout → Prop where
  | stray (value : Stray) (layout : Layout) : Filled (.stray value) layout
  | empty : Filled .empty .empty
  | lineBreak : Filled .lineBreak .lineBreak
  | text (content : String) : Filled (.text content) (.text content)
  | indent (amount : Int) {child filled : Layout} :
      Filled child filled → Filled (.indent amount child) (.indent amount filled)
  | concat {left right filledLeft filledRight : Layout} :
      Filled left filledLeft → Filled right filledRight →
        Filled (.concat left right) (.concat filledLeft filledRight)
  | choice {primary secondary filledPrimary filledSecondary : Layout} :
      Filled primary filledPrimary → Filled secondary filledSecondary →
        Filled (.choice primary secondary) (.choice filledPrimary filledSecondary)

inductive Work.Filled : Work → Work → Prop where
  | mk (indent : Int) {node filled : Layout} :
      node.Filled filled → Filled ⟨indent, node⟩ ⟨indent, filled⟩

def Queue.Filled : Queue → Queue → Prop := List.Forall₂ Work.Filled

inductive Fork.Filled : Fork → Fork → Prop where
  | mk (column indent : Int) (before : List Token) {secondary filled : Layout}
      {rest filledRest : Queue} :
      secondary.Filled filled → Queue.Filled rest filledRest →
        Filled ⟨column, indent, secondary, rest, before⟩
          ⟨column, indent, filled, filledRest, before⟩

inductive OpenLine.Filled : OpenLine → OpenLine → Prop where
  | mk (column : Int) (tokens : List Token) {queue filled : Queue}
      {forks filledForks : List Fork} :
      Queue.Filled queue filled → List.Forall₂ Fork.Filled forks filledForks →
        Filled ⟨column, queue, tokens, forks⟩ ⟨column, filled, tokens, filledForks⟩

inductive Line.Filled : Line → Line → Prop where
  | mk (tokens : List Token) (column : Int) {rest filled : Queue} :
      Queue.Filled rest filled → Filled ⟨tokens, column, rest⟩ ⟨tokens, column, filled⟩

inductive LineStep.Filled : LineStep → LineStep → Prop where
  | more {line filled : OpenLine} : line.Filled filled → Filled (.more line) (.more filled)
  | finished {line filled : Line} :
      line.Filled filled → Filled (.finished line) (.finished filled)

namespace OpenLine

variable {width : Int} {line filled : OpenLine}

theorem earlier_filled
    {forks filledForks : List Fork}
    (same : List.Forall₂ Fork.Filled forks filledForks) :
    filledForks.flatMap Fork.before = forks.flatMap Fork.before := by
  induction same with
  | nil => rfl
  | cons first _ ih =>
      cases first
      rw [List.flatMap_cons, List.flatMap_cons, ih]

theorem close_filled (same : line.Filled filled) : line.close.Filled filled.close := by
  cases same with
  | mk column tokens queue forks =>
      have earlier := earlier_filled forks
      simp only [close, allTokens, earlier]
      exact .mk _ column queue

theorem settle_filled (width : Int) (same : line.Filled filled) :
    LineStep.Filled (line.settle width) (filled.settle width) := by
  have closed := close_filled same
  cases same with
  | mk column tokens queue forks =>
      cases forks with
      | nil => exact .finished closed
      | cons first others =>
          cases first with
          | mk start indent before secondary rest =>
              simp only [settle]
              split
              · exact .finished closed
              · exact .more (.mk start before (.cons (.mk indent secondary) rest) others)

theorem take_filled
    (same : line.Filled filled)
    {work other : Work}
    {rest filledRest : Queue}
    (first : work.Filled other)
    (later : Queue.Filled rest filledRest)
    {next : LineStep}
    (taken : line.take width work rest = .ok next) :
    ∃ filledNext, filled.take width other filledRest = .ok filledNext ∧
      next.Filled filledNext := by
  cases same with
  | mk column tokens queue forks =>
      cases first with
      | mk indent node =>
          cases node with
          | stray value layout => cases taken
          | empty =>
              cases taken
              exact ⟨_, rfl, .more (.mk column tokens later forks)⟩
          | lineBreak =>
              cases taken
              exact ⟨_, rfl, settle_filled width (.mk indent _ later forks)⟩
          | text content =>
              cases taken
              exact ⟨_, rfl, .more (.mk _ _ later forks)⟩
          | indent amount child =>
              cases taken
              exact ⟨_, rfl, .more (.mk column tokens (.cons (.mk _ child) later) forks)⟩
          | concat left right =>
              cases taken
              have both := List.Forall₂.cons (Work.Filled.mk indent right) later
              exact ⟨_, rfl, .more (.mk column tokens (.cons (.mk indent left) both) forks)⟩
          | choice primary secondary =>
              cases taken
              have back := Fork.Filled.mk column indent tokens secondary later
              exact ⟨_, rfl, .more (.mk column [] (.cons (.mk indent primary) later)
                (.cons back forks))⟩

theorem step_filled
    (same : line.Filled filled)
    {next : LineStep}
    (stepped : line.step width = .ok next) :
    ∃ filledNext, filled.step width = .ok filledNext ∧ next.Filled filledNext := by
  have settled := settle_filled width same
  have cutAlike : filled.isCut width = line.isCut width := by
    cases same with
    | mk column tokens queue forks => cases forks <;> rfl
  cases same with
  | mk column tokens queue forks =>
      cases queue with
      | nil =>
          cases stepped
          exact ⟨_, rfl, settled⟩
      | cons first later =>
          unfold step at stepped ⊢
          dsimp only at stepped ⊢
          rw [cutAlike]
          split at stepped
          · rename_i cut
            rw [if_pos cut]
            cases stepped
            exact ⟨_, rfl, settled⟩
          · rename_i whole
            rw [if_neg whole]
            exact take_filled (.mk column tokens (.cons first later) forks) first later stepped

/-- A line that is finished without a fault stays as it is when the strays are filled in. -/
theorem run_filled
    (line filled : OpenLine)
    (same : line.Filled filled)
    (done : Line)
    (resolved : line.run width = .ok done) :
    ∃ filledDone, filled.run width = .ok filledDone ∧ done.Filled filledDone := by
  rw [run] at resolved
  split at resolved
  · cases resolved
  · rename_i last stepped
    cases resolved
    obtain ⟨_, filledStep, alike⟩ := step_filled same stepped
    cases alike with
    | finished ends => exact ⟨_, run_of_finished _ filledStep, ends⟩
  · rename_i next stepped
    have less := more_lowers stepped
    obtain ⟨_, filledStep, alike⟩ := step_filled same stepped
    cases alike with
    | more goesOn =>
        rw [run_of_more _ filledStep]
        exact run_filled next _ goesOn done resolved
termination_by line.steps

end OpenLine

theorem Line.resolve_filled
    {width column : Int}
    {queue filled : Queue}
    (same : Queue.Filled queue filled)
    {line : Line}
    (resolved : Line.resolve width column queue = .ok line) :
    ∃ filledLine, Line.resolve width column filled = .ok filledLine ∧
      line.Filled filledLine :=
  OpenLine.run_filled _ _ (.mk column [] same .nil) line resolved

end Typeset

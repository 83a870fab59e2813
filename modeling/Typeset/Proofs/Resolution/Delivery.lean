import Typeset.Proofs.Resolution.Lines

/-!
What a stream delivers. It delivers whole lines, and all but the last one end with a break,
so a fault finds no token of its own line delivered. Taking some tokens only is the same as
taking all of them and keeping the first ones, and what lies behind those is not resolved.
-/

set_option autoImplicit false

namespace Typeset

namespace Queue

variable {width column : Int} {work : Work} {rest : Queue}

theorem all_of_nil (width column : Int) : (Queue.resolve width column []).all = ⟨[], none⟩ := by
  rw [Queue.resolve]
  rfl

theorem resolve_of_fault
    {fault : LayoutFault}
    (failed : Line.resolve width column (work :: rest) = .error fault) :
    Queue.resolve width column (work :: rest) = .failed fault := by
  rw [Queue.resolve]
  split <;> simp_all

theorem all_of_fault
    {fault : LayoutFault}
    (failed : Line.resolve width column (work :: rest) = .error fault) :
    (Queue.resolve width column (work :: rest)).all = ⟨[], some fault⟩ := by
  rw [resolve_of_fault failed]
  rfl

theorem all_of_line
    {line : Line}
    (resolved : Line.resolve width column (work :: rest) = .ok line) :
    (Queue.resolve width column (work :: rest)).all =
      ⟨line.tokens ++ (Queue.resolve width line.column line.rest).all.tokens,
        (Queue.resolve width line.column line.rest).all.fault⟩ := by
  rw [resolve_of_line resolved]
  rfl

end Queue

/-- A complete line has no break and leaves nothing, or its only break is its last token. -/
theorem Candidate.Complete.unbroken_or_break
    {tokens : List Token}
    {rest : Queue}
    (complete : Candidate.Complete tokens rest) :
    (Token.Unbroken tokens ∧ rest = []) ∨
      ∃ texts indent, Token.Unbroken texts ∧ tokens = texts ++ [.line indent] := by
  induction tokens with
  | nil => exact .inl ⟨trivial, complete⟩
  | cons token later ih =>
      cases token with
      | text content =>
          rcases ih complete with whole | ⟨texts, indent, unbroken, same⟩
          · exact .inl whole
          · exact .inr ⟨.text content :: texts, indent, unbroken, by rw [same, List.cons_append]⟩
      | line indent =>
          have last : later = [] := complete
          exact .inr ⟨[], indent, trivial, by rw [last, List.nil_append]⟩

/-- A line with something left after it ends with a break. -/
theorem Candidate.Complete.ends_with_break
    {tokens : List Token}
    {rest : Queue}
    (complete : Candidate.Complete tokens rest)
    (left : rest ≠ []) :
    ∃ earlier indent, tokens = earlier ++ [.line indent] := by
  rcases complete.unbroken_or_break with ⟨_, none⟩ | ⟨texts, indent, _, same⟩
  · exact absurd none left
  · exact ⟨texts, indent, same⟩

theorem Line.complete_of_resolved
    {width column : Int}
    {queue : Queue}
    {line : Line}
    (resolved : Line.resolve width column queue = .ok line) :
    Candidate.Complete line.tokens line.rest := by
  have picked := (Line.picked_of_resolved resolved).1
  exact Queue.complete_of_mem_candidates queue _ (Candidate.pick_mem picked)

/-- No token of the line that fails is delivered, so the last one that is is a break. -/
theorem Queue.delivered_before_fault
    (width column : Int)
    (queue : Queue)
    (failed : (Queue.resolve width column queue).all.fault ≠ none) :
    (Queue.resolve width column queue).all.tokens = [] ∨
      ∃ earlier indent,
        (Queue.resolve width column queue).all.tokens = earlier ++ [.line indent] := by
  induction column, queue using delivery_induction width with
  | nil column =>
      rw [all_of_nil] at failed
      exact absurd rfl failed
  | failed column work rest fault met =>
      rw [all_of_fault met]
      exact .inl rfl
  | line column work rest line resolved ih =>
      rw [all_of_line resolved] at failed ⊢
      have left : line.rest ≠ [] := by
        intro drained
        rw [drained, all_of_nil] at failed
        exact failed rfl
      right
      rcases ih failed with none | ⟨earlier, indent, same⟩
      · obtain ⟨earlier, indent, same⟩ := (Line.complete_of_resolved resolved).ends_with_break left
        exact ⟨earlier, indent, by rw [none, List.append_nil, same]⟩
      · exact ⟨line.tokens ++ earlier, indent, by rw [same, List.append_assoc]⟩

theorem TokenStream.take_eq (stream : TokenStream) (count : Nat) :
    stream.take count =
      if count ≤ stream.all.tokens.length then ⟨stream.all.tokens.take count, none⟩
      else stream.all := by
  induction stream generalizing count with
  | ended =>
      cases count with
      | zero => rfl
      | succ count => rfl
  | failed fault =>
      cases count with
      | zero => rfl
      | succ count => rfl
  | line tokens rest ih =>
      cases count with
      | zero => simp [take]
      | succ count =>
          simp only [take, all, List.length_append]
          split
          · rename_i within
            rw [if_pos (by omega), List.take_append_of_le_length (by omega)]
          · rename_i beyond
            have whole : tokens.take (count + 1) = tokens := List.take_of_length_le (by omega)
            rw [ih]
            split
            · rename_i reached
              rw [if_pos (by omega), List.take_append, whole]
            · rename_i short
              rw [if_neg (by omega)]

end Typeset

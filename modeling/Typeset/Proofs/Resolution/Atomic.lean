import Typeset.Proofs.Resolution.Delivery
import Typeset.Proofs.Resolution.Described
import Typeset.Proofs.Resolution.Filled
import Typeset.Proofs.Resolution.Writing

/-!
Faults spoil whole lines. A stray fails the line in which it is met and no line before, so
what is delivered before a fault is what a layout without the stray begins with. Reading
some of the tokens, all of them, or writing them to a sink meets the fault at one place.
-/

set_option autoImplicit false

namespace Typeset

theorem Queue.delivered_of_filled
    (width column : Int)
    (queue filled : Queue)
    (same : Queue.Filled queue filled) :
    ∃ later, (Queue.resolve width column filled).all.tokens =
        (Queue.resolve width column queue).all.tokens ++ later ∧
      ((Queue.resolve width column queue).all.fault = none → later = []) := by
  induction column, queue using delivery_induction width generalizing filled with
  | nil column =>
      cases same
      exact ⟨[], by rw [List.append_nil], fun _ => rfl⟩
  | failed column work rest fault met =>
      rw [all_of_fault met]
      refine ⟨_, (List.nil_append _).symm, ?_⟩
      intro none
      cases none
  | line column work rest line resolved ih =>
      obtain ⟨filledLine, filledResolved, alike⟩ := Line.resolve_filled same resolved
      cases same with
      | cons first others =>
          cases alike with
          | mk tokens ending left =>
              obtain ⟨later, whole, complete⟩ := ih _ left
              rw [all_of_line filledResolved, all_of_line resolved]
              exact ⟨later, by rw [whole, List.append_assoc], complete⟩

namespace Layout

/-- With layouts for the strays all that was delivered is delivered again, and more of it
only if there was a fault. -/
theorem delivered_of_filled
    (layout filled : Layout)
    (same : layout.Filled filled)
    (clean : filled.Clean)
    (width column : Int) :
    ∃ tokens, (filled.resolve width column).all = ⟨tokens, none⟩ ∧
      (layout.resolve width column).all.tokens <+: tokens ∧
      ((layout.resolve width column).all.fault = none →
        (layout.resolve width column).all.tokens = tokens) := by
  obtain ⟨tokens, whole, _⟩ := filled.resolve_described clean width column
  obtain ⟨later, longer, complete⟩ := Queue.delivered_of_filled width column _ _
    (.cons (.mk 0 same) .nil)
  rw [show (Queue.resolve width column _).all = _ from whole] at longer
  refine ⟨tokens, whole, ⟨later, longer.symm⟩, ?_⟩
  intro faultless
  rw [complete faultless, List.append_nil] at longer
  exact longer.symm

theorem write_of_fault
    {layout : Layout}
    {width column : Int}
    {fault : LayoutFault}
    (met : (layout.resolve width column).all.fault = some fault)
    (sink : Sink) :
    ((layout.write width column).run.run sink).1 = .error fault := by
  rw [write, TokenStream.write, TokenStream.run_write_from]
  change Delivery.outcome _ 0 = _
  rw [Delivery.outcome, met]

theorem write_of_faultless
    {layout : Layout}
    {width column : Int}
    (met : (layout.resolve width column).all.fault = none)
    (sink : Sink) :
    ((layout.write width column).run.run sink).1 =
      .ok (Token.render (layout.resolve width column).all.tokens).length := by
  rw [write, TokenStream.write, TokenStream.run_write_from]
  change Delivery.outcome _ 0 = _
  rw [Delivery.outcome, met, Nat.zero_add]

/-- What is delivered before a fault is a run of whole lines, and it does not depend on what
stands where the strays are. The fault comes when the token after those is asked for, and
not before. Writing puts one chunk into the sink for each of these tokens and ends with the
same fault, or without one with the number of characters. -/
theorem faults_spoil_whole_lines (layout : Layout) (width column : Int) :
    let delivery := (layout.resolve width column).all
    (∀ fault, delivery.fault = some fault →
      delivery.tokens = [] ∨ ∃ earlier indent, delivery.tokens = earlier ++ [.line indent]) ∧
    (∀ filled, layout.Filled filled → filled.Clean →
      ∃ tokens, (filled.resolve width column).all = ⟨tokens, none⟩ ∧
        delivery.tokens <+: tokens ∧ (delivery.fault = none → delivery.tokens = tokens)) ∧
    (∀ count, (layout.resolve width column).take count =
      if count ≤ delivery.tokens.length then ⟨delivery.tokens.take count, none⟩
      else delivery) ∧
    ∀ sink : Sink,
      let written := (layout.write width column).run.run sink
      written.2.chunks = sink.chunks ++ (delivery.tokens.map Token.chunk).toArray ∧
        String.join (delivery.tokens.map Token.chunk) = Token.render delivery.tokens ∧
        match delivery.fault with
        | some fault => written.1 = .error fault
        | none =>
            layout.pretty width column = .ok (Token.render delivery.tokens) ∧
              written.1 = .ok (Token.render delivery.tokens).length := by
  intro delivery
  refine ⟨?_, ?_, TokenStream.take_eq _, ?_⟩
  · intro fault met
    have failed : delivery.fault ≠ none := by simp [met]
    exact Queue.delivered_before_fault width column _ failed
  · intro filled same clean
    exact layout.delivered_of_filled filled same clean width column
  · intro sink written
    refine ⟨?_, Token.join_chunks _, ?_⟩
    · have reached := TokenStream.run_write_from (layout.resolve width column) 0 sink
      exact congrArg (fun outcome => outcome.2.chunks) reached
    · cases met : delivery.fault with
      | some fault => exact write_of_fault met sink
      | none =>
          have delivered : (layout.resolve width column).all = ⟨delivery.tokens, none⟩ := by
            rw [← met]
          exact ⟨pretty_of_all delivered, write_of_faultless met sink⟩

/-- A break, and then either a longer text with this layout behind it or a shorter one. -/
def risky (behind : Layout) : Layout :=
  .concat (.text "a") (.concat .lineBreak (.choice (.concat (.text "bc") behind) (.text "b")))

/-- In one column the longer text is given up before the stray is met. In two columns the
stray fails the second line, and the first one is the sink's already. -/
theorem stray_spoils_second_line :
    ((risky (.stray (.data .null))).resolve 1 0).all = ⟨[.text "a", .line 0, .text "b"], none⟩ ∧
      ((risky (.stray (.data .null))).resolve 2 0).all =
        ⟨[.text "a", .line 0], some (.stray (.data .null))⟩ ∧
      (∃ tokens, ((risky .empty).resolve 2 0).all = ⟨tokens, none⟩ ∧
        [.text "a", .line 0] <+: tokens) ∧
      ((risky (.stray (.data .null))).write 2 0).run.run .empty =
        (.error (.stray (.data .null)), ⟨#["a", "\n"]⟩) := by
  have narrow : ((risky (.stray (.data .null))).resolve 1 0).all =
      ⟨[.text "a", .line 0, .text "b"], none⟩ := by decide +kernel
  have wide : ((risky (.stray (.data .null))).resolve 2 0).all =
      ⟨[.text "a", .line 0], some (.stray (.data .null))⟩ := by decide +kernel
  obtain ⟨_, whole, _, writes⟩ := faults_spoil_whole_lines (risky (.stray (.data .null))) 2 0
  have same : (risky (.stray (.data .null))).Filled (risky .empty) :=
    .concat (.text _) (.concat .lineBreak
      (.choice (.concat (.text _) (.stray _ _)) (.text _)))
  obtain ⟨tokens, delivered, begins, _⟩ := whole (risky .empty) same (by decide)
  obtain ⟨chunks, _, outcome⟩ := writes .empty
  rw [wide] at begins chunks outcome
  refine ⟨narrow, wide, ⟨tokens, delivered, begins⟩, ?_⟩
  exact Prod.ext outcome (Sink.mk.injEq _ _ |>.mpr chunks)

end Layout

end Typeset

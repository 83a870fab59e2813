import Typeset.Proofs.Token.Written
import Typeset.Resolution.Sink

/-!
What reaches a sink. Every token that a stream delivers is one chunk there, also those
before a fault. Without a fault the characters of all of them are counted.
-/

set_option autoImplicit false

namespace Typeset

theorem Token.run_write (tokens : List Token) (written : Nat) (sink : Sink) :
    (Token.write tokens written).run sink =
      (written + (Token.render tokens).length,
        ⟨sink.chunks ++ (tokens.map Token.chunk).toArray⟩) := by
  induction tokens generalizing written sink with
  | nil =>
      simp only [Token.write, Token.render, List.foldl_nil, List.map_nil, Array.append_empty]
      rfl
  | cons token rest ih =>
      change (Token.write rest (written + token.chunk.length)).run
        ⟨sink.chunks.push token.chunk⟩ = _
      rw [ih, Token.render_cons, String.length_append, Nat.add_assoc]
      simp

/-- What comes of writing all that was delivered after some characters. -/
def Delivery.outcome (delivery : Delivery) (written : Nat) : Except LayoutFault Nat :=
  match delivery.fault with
  | none => .ok (written + (Token.render delivery.tokens).length)
  | some fault => .error fault

theorem Delivery.outcome_behind (tokens : List Token) (later : Delivery) (written : Nat) :
    Delivery.outcome ⟨tokens ++ later.tokens, later.fault⟩ written =
      later.outcome (written + (Token.render tokens).length) := by
  obtain ⟨others, fault⟩ := later
  cases fault with
  | none => simp only [outcome, Token.render_append, String.length_append, Nat.add_assoc]
  | some fault => rfl

theorem TokenStream.run_write_from (stream : TokenStream) (written : Nat) (sink : Sink) :
    (stream.writeFrom written).run.run sink =
      (stream.all.outcome written,
        ⟨sink.chunks ++ (stream.all.tokens.map Token.chunk).toArray⟩) := by
  induction stream generalizing written sink with
  | ended =>
      simp only [all, List.map_nil, Array.append_empty]
      rfl
  | failed fault =>
      simp only [all, List.map_nil, Array.append_empty]
      rfl
  | line tokens rest ih =>
      have first : (liftM (Token.write tokens written) : Writing Nat).run.run sink =
          (.ok (written + (Token.render tokens).length),
            ⟨sink.chunks ++ (tokens.map Token.chunk).toArray⟩) := by
        change (Except.ok <$> Token.write tokens written).run sink = _
        rw [StateT.run_map, Token.run_write]
        rfl
      rw [writeFrom, ExceptT.run_bind, StateT.run_bind, first]
      change ((rest ()).writeFrom _).run.run _ = _
      rw [ih, all, Delivery.outcome_behind]
      simp

end Typeset

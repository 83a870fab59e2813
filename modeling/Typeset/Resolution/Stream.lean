import Typeset.Resolution.Line

/-!
A resolved layout as a stream of tokens. Lines are resolved one at a time, when the
tokens after them are asked for, so a fault comes only with the line that holds it and
none of that line's tokens are delivered.
-/

set_option autoImplicit false

namespace Typeset

/-- The stream has ended, has failed, or has another line. -/
inductive TokenStream where
  | ended
  | failed (fault : LayoutFault)
  | line (tokens : List Token) (rest : Unit → TokenStream)

/-- The tokens that a reader has received, and the fault that it met after them. -/
structure Delivery where
  tokens : List Token
  fault : Option LayoutFault
  deriving DecidableEq

namespace TokenStream

/-- Reads the stream to its end. -/
def all : TokenStream → Delivery
  | .ended => ⟨[], none⟩
  | .failed fault => ⟨[], some fault⟩
  | .line tokens rest =>
      let later := (rest ()).all
      ⟨tokens ++ later.tokens, later.fault⟩

/-- Reads at most `count` tokens. A line is resolved only when one of its tokens or of
those after it is still wanted. -/
def take : TokenStream → (count : Nat) → Delivery
  | _, 0 => ⟨[], none⟩
  | .ended, _ + 1 => ⟨[], none⟩
  | .failed fault, _ + 1 => ⟨[], some fault⟩
  | .line tokens rest, count + 1 =>
      if count < tokens.length then ⟨tokens.take (count + 1), none⟩
      else
        let later := (rest ()).take (count + 1 - tokens.length)
        ⟨tokens ++ later.tokens, later.fault⟩

end TokenStream

/-- The tokens of a queue that starts at a column. -/
def Queue.resolve (width column : Int) (queue : Queue) : TokenStream :=
  match queue with
  | [] => .ended
  | work :: rest =>
      match _resolved : Line.resolve width column (work :: rest) with
      | .error fault => .failed fault
      | .ok line => .line line.tokens fun _ => Queue.resolve width line.column line.rest
termination_by Queue.steps queue
decreasing_by exact Line.rest_steps_lt width column work rest line _resolved

/-- The tokens of a layout for a width, when `column` columns of the first line are
taken already. -/
def Layout.resolve (layout : Layout) (width column : Int) : TokenStream :=
  Queue.resolve width column [⟨0, layout⟩]

/-- The text of a layout for a width. -/
def Layout.pretty (layout : Layout) (width column : Int) : Except LayoutFault String :=
  let delivery := (layout.resolve width column).all
  match delivery.fault with
  | some fault => .error fault
  | none => .ok (Token.render delivery.tokens)

end Typeset

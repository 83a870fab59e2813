import Typeset.Resolution.Stream

/-!
Writing to a sink. A sink is handed one chunk for every token, as soon as the token is
there, and a fault leaves in it what was written before.
-/

set_option autoImplicit false

namespace Typeset

/-- What keeps the chunks that are written to it, the first one first. -/
structure Sink where
  chunks : Array String
  deriving DecidableEq

namespace Sink

def empty : Sink := ⟨#[]⟩

/-- Writes a chunk. The answer is the number of its characters. -/
def put (chunk : String) : StateM Sink Nat :=
  modifyGet fun sink => (chunk.length, ⟨sink.chunks.push chunk⟩)

end Sink

/-- Writing stops at a fault. -/
abbrev Writing (α : Type) := ExceptT LayoutFault (StateM Sink) α

/-- Writes the tokens, and counts their characters on from those written before. -/
def Token.write : (tokens : List Token) → (written : Nat) → StateM Sink Nat
  | [], written => return written
  | token :: rest, written => do
      let added ← Sink.put token.chunk
      Token.write rest (written + added)

namespace TokenStream

/-- Writes the lines of the stream, each before the next one is resolved. -/
def writeFrom : TokenStream → (written : Nat) → Writing Nat
  | .ended, written => return written
  | .failed fault, _ => throw fault
  | .line tokens rest, written => do
      let reached ← Token.write tokens written
      (rest ()).writeFrom reached

def write (stream : TokenStream) : Writing Nat := stream.writeFrom 0

end TokenStream

/-- Writes the text of a layout for a width. The answer is the number of characters. -/
def Layout.write (layout : Layout) (width column : Int) : Writing Nat :=
  (layout.resolve width column).write

end Typeset

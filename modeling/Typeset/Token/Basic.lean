/-!
Tokens of a resolved layout, the test whether their first line fits, and their text.
-/

set_option autoImplicit false

namespace Typeset

/-- A piece of text on the current line, or a line break with the indentation of the
line that it starts. -/
inductive Token where
  | text (content : String)
  | line (indent : Int)
  deriving DecidableEq, Repr

namespace Token

/-- What a token adds to the rendered text. An indentation below zero counts as zero. -/
def chunk : Token → String
  | .text content => content
  | .line indent => "\n" ++ String.ofList (List.replicate indent.toNat ' ')

/-- The rendered text of the tokens. -/
def render (tokens : List Token) : String :=
  tokens.foldl (fun written token => written ++ token.chunk) ""

/-- Whether the texts before the first line break take at most `remaining` columns.
Nothing fits into fewer than none. -/
def fits (tokens : List Token) (remaining : Int) : Bool :=
  if remaining < 0 then false
  else match tokens with
    | [] => true
    | .line _ :: _ => true
    | .text content :: rest => fits rest (remaining - content.length)

end Token

end Typeset

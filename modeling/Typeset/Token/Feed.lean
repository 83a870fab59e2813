import Typeset.Token.Basic

/-!
Token streams that are read once, from the front. A feed keeps count of the tokens that
were taken from it, so it shows how far a reader has looked ahead.
-/

set_option autoImplicit false

namespace Typeset

/-- A stream of tokens: those ahead, and how many were taken before them. -/
structure Feed where
  taken : Nat
  ahead : List Token
  deriving DecidableEq, Repr

namespace Feed

def ofList (tokens : List Token) : Feed where
  taken := 0
  ahead := tokens

/-- Takes the first line from a feed as far as that is needed to see whether it fits.
The tokens that were taken come with the verdict. -/
def probe (taken : Nat) (remaining : Int) : List Token → Bool × List Token × Feed
  | [] => (0 ≤ remaining, [], ⟨taken, []⟩)
  | token :: rest =>
      if remaining < 0 then (false, [], ⟨taken, token :: rest⟩)
      else match token with
        | .line indent => (true, [.line indent], ⟨taken + 1, rest⟩)
        | .text content =>
            let (verdict, seen, feed) := probe (taken + 1) (remaining - content.length) rest
            (verdict, .text content :: seen, feed)

/-- Whether the first line fits, and the feed after looking. -/
def fits (feed : Feed) (remaining : Int) : Bool × Feed :=
  let (verdict, _, after) := probe feed.taken remaining feed.ahead
  (verdict, after)

/-- Takes all that is ahead. -/
def drain (feed : Feed) : List Token × Feed :=
  (feed.ahead, ⟨feed.taken + feed.ahead.length, []⟩)

end Feed

/-- The outcome of choosing between two streams: the tokens that were taken while
looking and belong to the chosen stream, and both feeds. -/
structure Preference where
  takesFirst : Bool
  replayed : List Token
  first : Feed
  second : Feed
  deriving DecidableEq, Repr

namespace Preference

/-- The first stream if its first line fits, and else the second. Only the first one is
looked at. -/
def better (first second : Feed) (remaining : Int) : Preference :=
  let (verdict, seen, after) := Feed.probe first.taken remaining first.ahead
  ⟨verdict, if verdict then seen else [], after, second⟩

/-- Reads the chosen stream to its end. -/
def drain (preference : Preference) : List Token × Preference :=
  if preference.takesFirst then
    let (tokens, after) := preference.first.drain
    (preference.replayed ++ tokens, { preference with replayed := [], first := after })
  else
    let (tokens, after) := preference.second.drain
    (preference.replayed ++ tokens, { preference with replayed := [], second := after })

end Preference

end Typeset

import Typeset.Layout.Combinators
import Typeset.Schema.Check

/-!
Lists of words, filled onto lines: the smallest document that a client may want.
-/

set_option autoImplicit false

namespace Typeset

structure Words where
  words : List String

namespace Words

def read (value : Json) : Check Words :=
  Check.record value fun fields =>
    Words.mk <$> Check.field fields "words" fun list _ =>
      Check.list list fun word _ => Check.text word

def toJson (document : Words) : Json :=
  .obj [("words", .arr (document.words.map .str))]

def layout (document : Words) : Build Layout := Layout.fill (document.words.map .text)

def sample : Words where
  words := ["lorem", "ipsum", "dolor"]

end Words

end Typeset

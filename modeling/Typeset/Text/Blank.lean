/-!
Blank characters. Two sets are in use. Numbers and documents trim the characters
of the Unicode property White_Space. Settings are trimmed of four more, the
information separators U+001C to U+001F, which divide text like blanks do.
-/

set_option autoImplicit false

namespace Typeset.Text

/-- The Unicode property White_Space. -/
def isWhiteSpace (c : Char) : Bool :=
  (0x09 ≤ c.val && c.val ≤ 0x0D) || c.val == 0x20 || c.val == 0x85 || c.val == 0xA0 ||
    c.val == 0x1680 || (0x2000 ≤ c.val && c.val ≤ 0x200A) || c.val == 0x2028 ||
    c.val == 0x2029 || c.val == 0x202F || c.val == 0x205F || c.val == 0x3000

/-- White space and the four information separators. -/
def isBlank (c : Char) : Bool :=
  isWhiteSpace c || (0x1C ≤ c.val && c.val ≤ 0x1F)

/-- The characters between the first and the last that `skip` does not name. -/
def trimList (skip : Char → Bool) (text : List Char) : List Char :=
  ((text.dropWhile skip).reverse.dropWhile skip).reverse

end Typeset.Text

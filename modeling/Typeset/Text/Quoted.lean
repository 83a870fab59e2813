import Typeset.Text.Printable

/-!
Quoted text, as it stands in messages. The quotes are single, or double when the
text holds a single quote and no double one. Inside, the backslash, the quote in
use and the characters that are not printable are written as escapes.
-/

set_option autoImplicit false

namespace Typeset.Text

def hexDigit (value : Nat) : Char :=
  if value < 10 then Char.ofNat ('0'.toNat + value) else Char.ofNat ('a'.toNat + (value - 10))

/-- The last `width` hexadecimal digits of a number, in lower case. -/
def hexDigits : (width : Nat) → (value : Nat) → List Char
  | 0, _ => []
  | width + 1, value => hexDigits width (value / 16) ++ [hexDigit (value % 16)]

/-- The escape of a code point takes the shortest of the forms with two, four and
eight digits that holds it. -/
def hexEscape (point : Nat) : List Char :=
  if point < 0x100 then '\\' :: 'x' :: hexDigits 2 point
  else if point < 0x10000 then '\\' :: 'u' :: hexDigits 4 point
  else '\\' :: 'U' :: hexDigits 8 point

def escaped (quote c : Char) : List Char :=
  if c = quote ∨ c = '\\' then ['\\', c]
  else if c = '\n' then ['\\', 'n']
  else if c = '\r' then ['\\', 'r']
  else if c = '\t' then ['\\', 't']
  else if isPrintable c then [c]
  else hexEscape c.toNat

def quoteOf (text : List Char) : Char :=
  if text.contains '\'' ∧ ¬text.contains '"' then '"' else '\''

def quotedList (text : List Char) : List Char :=
  quoteOf text :: text.flatMap (escaped (quoteOf text)) ++ [quoteOf text]

def quoted (text : String) : String := String.ofList (quotedList text.toList)

end Typeset.Text

import Typeset.Text.Blank
import Typeset.Text.Digit

/-!
Whole numbers written in text: an optional sign and digits, single underscores between
the digits being allowed. Settings and arguments may use the digits of any script.
-/

set_option autoImplicit false

namespace Typeset.Text

/-- The values of the digits, where `started` tells whether a digit stands just before.
An underscore stands between two digits. -/
def groupedDigitsFrom? (digit? : Char → Option Nat) : (started : Bool) → List Char →
    Option (List Nat)
  | started, [] => if started then some [] else none
  | true, '_' :: rest => groupedDigitsFrom? digit? false rest
  | _, c :: rest => do
      let value ← digit? c
      let others ← groupedDigitsFrom? digit? true rest
      some (value :: others)

/-- The values of one digit or more, with single underscores between them. -/
def groupedDigits? (digit? : Char → Option Nat) (text : List Char) : Option (List Nat) :=
  groupedDigitsFrom? digit? false text

def ofDigits (digits : List Nat) : Nat :=
  digits.foldl (fun total value => total * 10 + value) 0

/-- Whether a sign makes the number negative, and what follows the sign. -/
def splitSign : List Char → Bool × List Char
  | '+' :: rest => (false, rest)
  | '-' :: rest => (true, rest)
  | text => (false, text)

def withSign (negative : Bool) (size : Nat) : Int := if negative then -(size : Int) else size

/-- Longer whole numbers are not read from text. -/
def maxDigits : Nat := 4300

/-- A whole number with the digits of any script and white space around it. -/
def readInt? (text : String) : Option Int := do
  let (negative, size) := splitSign (trimList isWhiteSpace text.toList)
  let digits ← groupedDigits? digitValue? size
  if maxDigits < digits.length then none else some (withSign negative (ofDigits digits))

end Typeset.Text

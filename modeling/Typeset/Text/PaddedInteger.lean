import Typeset.Text.Integer

/-!
Whole numbers in documents. The plain form has a minus sign or none, and no zeros in
front. Around it there may be white space, a plus sign, zeros with underscores among
them, single underscores between the digits, and a fraction of zeros. When zeros come
first, the minus sign may also stand behind them.
-/

set_option autoImplicit false

namespace Typeset.Text

def isLeadingDigit (c : Char) : Bool := '1' ≤ c && c ≤ '9'

def isAsciiDigit (c : Char) : Bool := (asciiDigitValue? c).isSome

/-- The size of a whole number in its plain form. -/
def plainSize? (text : List Char) : Option Nat :=
  match text with
  | ['0'] => some 0
  | first :: _ =>
      if isLeadingDigit first && text.length ≤ maxDigits then
        (text.mapM asciiDigitValue?).map ofDigits
      else none
  | [] => none

/-- A whole number in its plain form. -/
def plainInt? : List Char → Option Int
  | '-' :: size => (plainSize? size).map (withSign true)
  | size => (plainSize? size).map (withSign false)

/-- Whether the text starts with the plain form of a number that has too many digits. -/
def startsOversized (text : List Char) : Bool :=
  let size := match text with
    | '-' :: rest => rest
    | _ => text
  match size with
  | first :: _ => isLeadingDigit first && maxDigits < (size.takeWhile isAsciiDigit).length
  | [] => false

/-- What is left after zeros and underscores, the last of which was `last`. It stays when
a fraction or nothing at all follows. -/
def afterZeros (last : Char) : List Char → Option (List Char)
  | [] => some [last]
  | c :: rest =>
      if c = '0' ∨ c = '_' then afterZeros c rest
      else if c = '.' then some (last :: c :: rest)
      else if c = '-' ∨ isLeadingDigit c then some (c :: rest)
      else none

def dropZeros : List Char → Option (List Char)
  | '0' :: rest => afterZeros '0' rest
  | c :: rest => if isLeadingDigit c then some (c :: rest) else none
  | [] => none

/-- The text without a fraction that has zeros only. -/
def dropFraction (text : List Char) : List Char :=
  match text.dropWhile (· != '.') with
  | '.' :: zeros =>
      if !zeros.isEmpty && zeros.all (· == '0') then text.takeWhile (· != '.') else text
  | _ => text

/-- Whether two underscores stand side by side. -/
def hasDoubleUnderscore : List Char → Bool
  | '_' :: '_' :: _ => true
  | _ :: rest => hasDoubleUnderscore rest
  | [] => false

/-- The text without its underscores, if they are single and other characters surround
them. -/
def dropUnderscores (text : List Char) : List Char :=
  if text.head? = some '_' ∨ text.getLast? = some '_' ∨ hasDoubleUnderscore text then text
  else text.filter (· != '_')

/-- A whole number in its plain form or with any of what may surround it. -/
def paddedInt? (text : List Char) : Option Int := do
  let unsigned ← match trimList isWhiteSpace text with
    | '+' :: '-' :: _ => none
    | '+' :: rest => some rest
    | rest => some rest
  match unsigned with
  | '-' :: rest => do
      let size ← dropZeros rest
      plainInt? ('-' :: dropUnderscores (dropFraction size))
  | rest => do
      let size ← dropZeros rest
      plainInt? (dropUnderscores (dropFraction size))

end Typeset.Text

import Typeset.Json.Basic
import Typeset.Text.Digit

/-!
Reading JSON text. White space is the space, the tab, the line feed and the carriage
return. The names `NaN`, `Infinity` and `-Infinity` are numbers. Arrays and objects
that are not empty nest only so deep, and numbers have only so many digits before the
point, as the limits say.
A reader gives back what is left of the text.
-/

set_option autoImplicit false

namespace Typeset.Json

/-- How deep arrays and objects that are not empty may nest together, and how many digits
a number may have before the point. -/
structure Limits where
  depth : Nat
  digits : Nat
  deriving DecidableEq, Repr

/-- The limits on documents. -/
def documentLimits : Limits where
  depth := 200
  digits := 4300

/-- Takes a piece from the front of the input. -/
abbrev Reader (α : Type) := List Char → Option (α × List Char)

namespace Reader

def isSpace (c : Char) : Bool := c == ' ' || c == '\t' || c == '\n' || c == '\r'

def skipSpace (input : List Char) : List Char := input.dropWhile isSpace

/-- The rest of the input after a word that it starts with. -/
def afterWord? : (word input : List Char) → Option (List Char)
  | [], input => some input
  | w :: word, c :: input => if w = c then afterWord? word input else none
  | _ :: _, [] => none

def hexValue? (c : Char) : Option Nat :=
  if '0' ≤ c ∧ c ≤ '9' then some (c.toNat - '0'.toNat)
  else if 'a' ≤ c ∧ c ≤ 'f' then some (c.toNat - 'a'.toNat + 10)
  else if 'A' ≤ c ∧ c ≤ 'F' then some (c.toNat - 'A'.toNat + 10)
  else none

/-- Four hexadecimal digits. -/
def codeUnit : Reader Nat
  | a :: b :: c :: d :: rest => do
      let high := (← hexValue? a) * 16 + (← hexValue? b)
      let low := (← hexValue? c) * 16 + (← hexValue? d)
      some (high * 256 + low, rest)
  | _ => none

def isHighSurrogate (unit : Nat) : Bool := 0xD800 ≤ unit && unit < 0xDC00

def isLowSurrogate (unit : Nat) : Bool := 0xDC00 ≤ unit && unit < 0xE000

/-- The character of one or two escaped code units. A surrogate must be the high one
of a pair. -/
def escapedUnits (input : List Char) : Option (Char × List Char) := do
  let (unit, rest) ← codeUnit input
  if isHighSurrogate unit then
    let (second, rest) ← codeUnit (← afterWord? ['\\', 'u'] rest)
    if isLowSurrogate second then
      some (Char.ofNat (0x10000 + (unit - 0xD800) * 0x400 + (second - 0xDC00)), rest)
    else none
  else if isLowSurrogate unit then none
  else some (Char.ofNat unit, rest)

/-- The character of an escape, after its backslash. -/
def escape : Reader Char
  | '"' :: rest => some ('"', rest)
  | '\\' :: rest => some ('\\', rest)
  | '/' :: rest => some ('/', rest)
  | 'b' :: rest => some ('\x08', rest)
  | 'f' :: rest => some ('\x0c', rest)
  | 'n' :: rest => some ('\n', rest)
  | 'r' :: rest => some ('\r', rest)
  | 't' :: rest => some ('\t', rest)
  | 'u' :: rest => escapedUnits rest
  | _ => none

/-- The characters of a string up to its closing quote, at most `fuel` of them. -/
def characters : (fuel : Nat) → Reader (List Char)
  | 0, _ => none
  | fuel + 1, input =>
      match input with
      | [] => none
      | c :: rest =>
          if c = '"' then some ([], rest)
          else if c = '\\' then do
            let (first, rest) ← escape rest
            let (others, rest) ← characters fuel rest
            some (first :: others, rest)
          else if c.toNat < 0x20 then none
          else do
            let (others, rest) ← characters fuel rest
            some (c :: others, rest)

/-- A string of at most `size` characters, after its opening quote. -/
def string (size : Nat) (input : List Char) : Option (String × List Char) := do
  let (content, rest) ← characters size input
  some (String.ofList content, rest)

def isDigit (c : Char) : Bool := (Text.asciiDigitValue? c).isSome

def digits (input : List Char) : List Char × List Char :=
  (input.takeWhile isDigit, input.dropWhile isDigit)

def digitsValue (digits : List Char) : Nat :=
  digits.foldl (fun total c => total * 10 + (Text.asciiDigitValue? c).getD 0) 0

/-- The digits before the point: a zero stands alone. -/
def wholePart (input : List Char) : Option (List Char × List Char) :=
  match digits input with
  | ([], _) => none
  | ('0' :: _ :: _, _) => none
  | (whole, rest) => some (whole, rest)

/-- The digits after a point, if there is one. -/
def fraction : Reader (Option (List Char))
  | '.' :: rest =>
      match digits rest with
      | ([], _) => none
      | (places, rest) => some (some places, rest)
  | input => some (none, input)

def signed : List Char → Bool × List Char
  | '+' :: rest => (false, rest)
  | '-' :: rest => (true, rest)
  | input => (false, input)

/-- The power of ten after the letter `e`, if there is one. -/
def power (input : List Char) : Option (Option Int × List Char) :=
  match input with
  | c :: rest =>
      if c = 'e' ∨ c = 'E' then
        let (negative, rest) := signed rest
        match digits rest with
        | ([], _) => none
        | (size, rest) =>
            let size : Int := digitsValue size
            some (some (if negative then -size else size), rest)
      else some (none, input)
  | [] => some (none, [])

/-- A number after its sign. Without a fraction and a power of ten it is whole. -/
def number (limits : Limits) (negative : Bool) (input : List Char) :
    Option (Json × List Char) := do
  let (whole, rest) ← wholePart input
  guard (whole.length ≤ limits.digits)
  let (places?, rest) ← fraction rest
  let (power?, rest) ← power rest
  if places?.isNone && power?.isNone then
    let size : Int := digitsValue whole
    some (.int (if negative then -size else size), rest)
  else
    let places := places?.getD []
    let exponent := power?.getD 0 - places.length
    some (.real (.ofDecimal negative (digitsValue (whole ++ places)) exponent), rest)

/-- A value that holds no others. -/
def scalar (limits : Limits) (size : Nat) (input : List Char) : Option (Json × List Char) :=
  match input with
  | '"' :: rest => (string size rest).map fun (text, rest) => (.str text, rest)
  | 'n' :: rest => (afterWord? "ull".toList rest).map fun rest => (.null, rest)
  | 't' :: rest => (afterWord? "rue".toList rest).map fun rest => (.bool true, rest)
  | 'f' :: rest => (afterWord? "alse".toList rest).map fun rest => (.bool false, rest)
  | 'N' :: rest => (afterWord? "aN".toList rest).map fun rest => (.real .nan, rest)
  | 'I' :: rest =>
      (afterWord? "nfinity".toList rest).map fun rest => (.real (.infinite false), rest)
  | '-' :: 'I' :: rest =>
      (afterWord? "nfinity".toList rest).map fun rest => (.real (.infinite true), rest)
  | '-' :: rest => number limits true rest
  | _ => number limits false input

/-- Items separated by commas up to the closing bracket, at most `fuel` of them. -/
def items {α : Type} (item : Reader α) (close : Char) : (fuel : Nat) → Reader (List α)
  | 0, _ => none
  | fuel + 1, input => do
      let (first, rest) ← item (skipSpace input)
      match skipSpace rest with
      | [] => none
      | c :: rest =>
          if c = close then some ([first], rest)
          else if c = ',' then do
            let (others, rest) ← items item close fuel rest
            some (first :: others, rest)
          else none

/-- What stands between brackets, after the opening one. There are at most `size` items. -/
def bracketed {α : Type} (item : Reader α) (close : Char) (size : Nat) (input : List Char) :
    Option (List α × List Char) :=
  match skipSpace input with
  | [] => none
  | c :: rest => if c = close then some ([], rest) else items item close size input

/-- The name of a field, a colon and its value. -/
def field (value : Reader Json) (size : Nat) : Reader (String × Json)
  | '"' :: input => do
      let (name, rest) ← string size input
      match skipSpace rest with
      | ':' :: rest => do
          let (held, rest) ← value (skipSpace rest)
          some ((name, held), rest)
      | _ => none
  | _ => none

/-- A value whose parts are read by `part`. The whole text has `size` characters, so
nothing in it has more parts. -/
def valueOf (limits : Limits) (size : Nat) (part : Reader Json) : Reader Json
  | '[' :: rest => (bracketed part ']' size rest).map fun (held, rest) => (.arr held, rest)
  | '\x7b' :: rest =>
      (bracketed (field part size) '\x7d' size rest).map fun (held, rest) =>
        (ofFields held, rest)
  | input => scalar limits size input

/-- A value in which arrays and objects with parts nest at most `depth` deep. -/
def value (limits : Limits) (size : Nat) : (depth : Nat) → Reader Json
  | 0 => valueOf limits size fun _ => none
  | depth + 1 => valueOf limits size (value limits size depth)

end Reader

/-- The value that a text spells, with nothing but white space around it. -/
def read? (limits : Limits) (text : String) : Option Json := do
  let input := text.toList
  let (value, rest) ← Reader.value limits input.length limits.depth (Reader.skipSpace input)
  if (Reader.skipSpace rest).isEmpty then some value else none

end Typeset.Json

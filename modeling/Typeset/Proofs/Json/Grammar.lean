import Typeset.Json.Reader
import Typeset.Text.Quoted

/-!
The texts of a JSON value. A text may have gaps between its parts, a character of a string may
stand for itself or be escaped, and a number has no zero in front. The grammar says of a value
and a text that the text spells the value; nothing in it looks for the end of a part, so it does
not say how a text is read.
-/

set_option autoImplicit false

namespace Typeset.Json

/-- White space between the parts of a text. -/
def Gap (text : List Char) : Prop := ∀ c ∈ text, c ∈ [' ', '\t', '\n', '\r']

/-- The letters that stand for a character behind a backslash. -/
def letterEscapes : List (Char × Char) :=
  [ ('"', '"'), ('\\', '\\'), ('/', '/'), ('b', '\x08'), ('f', '\x0c'), ('n', '\n'), ('r', '\r'),
    ('t', '\t') ]

/-- A code unit in four hexadecimal digits, in small or capital letters. -/
def SpellsUnit (unit : Nat) (digits : List Char) : Prop :=
  digits.map Char.toLower = Text.hexDigits 4 unit

/-- How a character of a string may be written. Beyond the code points of four digits it takes
two code units. -/
inductive SpellsChar : Char → List Char → Prop where
  | plain {c : Char} : c ≠ '"' → c ≠ '\\' → 0x20 ≤ c.toNat → SpellsChar c [c]
  | letter {letter c : Char} : (letter, c) ∈ letterEscapes → SpellsChar c ['\\', letter]
  | unit {c : Char} {digits : List Char} :
      c.toNat < 0x10000 → SpellsUnit c.toNat digits → SpellsChar c ('\\' :: 'u' :: digits)
  | units {c : Char} {high low : List Char} :
      0x10000 ≤ c.toNat →
      SpellsUnit (0xD800 + (c.toNat - 0x10000) / 0x400) high →
      SpellsUnit (0xDC00 + (c.toNat - 0x10000) % 0x400) low →
      SpellsChar c ('\\' :: 'u' :: high ++ '\\' :: 'u' :: low)

/-- The inside of a string, from quote to quote. -/
inductive SpellsChars : List Char → List Char → Prop where
  | nil : SpellsChars [] []
  | cons {c : Char} {rest text later : List Char} :
      SpellsChar c text → SpellsChars rest later → SpellsChars (c :: rest) (text ++ later)

def SpellsString (content : String) (text : List Char) : Prop :=
  ∃ inside, SpellsChars content.toList inside ∧ text = '"' :: inside ++ ['"']

def signText (negative : Bool) : List Char := if negative then ['-'] else []

def signedValue (negative : Bool) (size : Nat) : Int := if negative then -size else size

def Digits (text : List Char) : Prop := ∀ c ∈ text, c.isDigit = true

/-- The digits behind a point, if there are any. -/
def fractionText (places : List Char) : List Char :=
  if places = [] then [] else '.' :: places

/-- A power of ten, or nothing. -/
inductive SpellsPower : Int → List Char → Prop where
  | absent : SpellsPower 0 []
  | upward {letter : Char} {sign digits : List Char} :
      letter = 'e' ∨ letter = 'E' → sign = [] ∨ sign = ['+'] → Digits digits → digits ≠ [] →
      SpellsPower (Nat.ofDigitChars 10 digits 0) (letter :: sign ++ digits)
  | downward {letter : Char} {digits : List Char} :
      letter = 'e' ∨ letter = 'E' → Digits digits → digits ≠ [] →
      SpellsPower (-(Nat.ofDigitChars 10 digits 0 : Nat)) (letter :: '-' :: digits)

/-- A number with at most so many digits before the point. It is whole where neither a fraction
nor a power of ten follows. -/
inductive SpellsNumber (digits : Nat) : Json → List Char → Prop where
  | whole {negative : Bool} {size : Nat} :
      (Nat.toDigits 10 size).length ≤ digits →
      SpellsNumber digits (.int (signedValue negative size))
        (signText negative ++ Nat.toDigits 10 size)
  | real {negative : Bool} {size : Nat} {places powerText : List Char} {power : Int} :
      (Nat.toDigits 10 size).length ≤ digits →
      Digits places → SpellsPower power powerText → places ≠ [] ∨ powerText ≠ [] →
      SpellsNumber digits
        (.real (.ofDecimal negative
          (Nat.ofDigitChars 10 (Nat.toDigits 10 size ++ places) 0) (power - places.length)))
        (signText negative ++ Nat.toDigits 10 size ++ fractionText places ++ powerText)

section Parts

variable {α : Type}

/-- Parts with commas between them and gaps around each. There is one part at least. -/
inductive SpellsParts (spells : α → List Char → Prop) : List α → List Char → Prop where
  | last {item : α} {before text after : List Char} :
      Gap before → spells item text → Gap after → SpellsParts spells [item] (before ++ text ++ after)
  | more {item : α} {rest : List α} {before text after later : List Char} :
      Gap before → spells item text → Gap after → SpellsParts spells rest later →
      SpellsParts spells (item :: rest) (before ++ text ++ after ++ ',' :: later)

end Parts

/-- A field: its name, a colon and its value. -/
inductive SpellsField (spells : Json → List Char → Prop) : String × Json → List Char → Prop where
  | field {name : String} {value : Json} {nameText before after text : List Char} :
      SpellsString name nameText → Gap before → Gap after → spells value text →
      SpellsField spells (name, value) (nameText ++ before ++ ':' :: after ++ text)

/-- A value whose parts, if it has any, are spelled as `part` says. Of the fields of one name
the last one counts. -/
inductive SpellsWith (digits : Nat) (part : Json → List Char → Prop) : Json → List Char → Prop where
  | null : SpellsWith digits part .null ['n', 'u', 'l', 'l']
  | yes : SpellsWith digits part (.bool true) ['t', 'r', 'u', 'e']
  | no : SpellsWith digits part (.bool false) ['f', 'a', 'l', 's', 'e']
  | nan : SpellsWith digits part (.real .nan) ['N', 'a', 'N']
  | infinite {negative : Bool} :
      SpellsWith digits part (.real (.infinite negative))
        (signText negative ++ ['I', 'n', 'f', 'i', 'n', 'i', 't', 'y'])
  | number {value : Json} {text : List Char} :
      SpellsNumber digits value text → SpellsWith digits part value text
  | string {content : String} {text : List Char} :
      SpellsString content text → SpellsWith digits part (.str content) text
  | noItems {gap : List Char} : Gap gap → SpellsWith digits part (.arr []) ('[' :: gap ++ [']'])
  | items {items : List Json} {text : List Char} :
      SpellsParts part items text → SpellsWith digits part (.arr items) ('[' :: text ++ [']'])
  | noFields {gap : List Char} :
      Gap gap → SpellsWith digits part (.obj []) ('\x7b' :: gap ++ ['\x7d'])
  | fields {fields : List (String × Json)} {text : List Char} :
      SpellsParts (SpellsField part) fields text →
      SpellsWith digits part (ofFields fields) ('\x7b' :: text ++ ['\x7d'])

/-- A value in which arrays and objects with parts nest at most `depth` deep. -/
def Spells (digits : Nat) : (depth : Nat) → Json → List Char → Prop
  | 0 => SpellsWith digits fun _ _ => False
  | depth + 1 => SpellsWith digits (Spells digits depth)

/-- A text that spells a value within the limits, with nothing but gaps around it. -/
def Spelled (limits : Limits) (value : Json) (text : String) : Prop :=
  ∃ before inside after, Gap before ∧ Spells limits.digits limits.depth value inside ∧ Gap after ∧
    text.toList = before ++ inside ++ after

end Typeset.Json

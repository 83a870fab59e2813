import Typeset.Json.Basic
import Typeset.Text.Quoted

/-!
Writing JSON text without spaces. Control characters, quotes and backslashes are
escaped, everything else stands for itself.
-/

set_option autoImplicit false

namespace Typeset.Json

def escapedChar (c : Char) : List Char :=
  if c = '"' then ['\\', '"']
  else if c = '\\' then ['\\', '\\']
  else if c.toNat < 0x20 then '\\' :: 'u' :: Text.hexDigits 4 c.toNat
  else [c]

def stringChars (text : String) : List Char :=
  '"' :: text.toList.flatMap escapedChar ++ ['"']

def stringText (text : String) : String := String.ofList (stringChars text)

/-- Infinities and the value that is no number have the names that the reader knows. -/
def realText : Binary64 → String
  | .nan => "NaN"
  | .infinite negative => if negative then "-Infinity" else "Infinity"
  | value => value.text

mutual

/-- Appends the text of a value to what is written already. -/
def write (written : String) : Json → String
  | .null => written ++ "null"
  | .bool value => written ++ if value then "true" else "false"
  | .int value => written ++ toString value
  | .real value => written ++ realText value
  | .str value => written ++ stringText value
  | .arr items => writeItems (written.push '[') true items |>.push ']'
  | .obj fields => writeFields (written.push '\x7b') true fields |>.push '\x7d'

def writeItems (written : String) (first : Bool) : List Json → String
  | [] => written
  | item :: rest => writeItems (write (if first then written else written.push ',') item) false rest

def writeFields (written : String) (first : Bool) : List (String × Json) → String
  | [] => written
  | (name, value) :: rest =>
      let opened := (if first then written else written.push ',') ++ stringText name
      writeFields (write (opened.push ':') value) false rest

end

def text (value : Json) : String := write "" value

end Typeset.Json

import Typeset.Json.Display
import Typeset.Text.Integer

/-!
Settings and the environment variables that they are read from. A value given by the
caller comes first, then the variable if its text can be read, then the default.
-/

set_option autoImplicit false

namespace Typeset

inductive SettingType where
  | whole
  | flag
  | text
  deriving DecidableEq

namespace SettingType

/-- How the type of a setting is called in listings. -/
def name : SettingType → String
  | .whole => "int"
  | .flag => "bool"
  | .text => "str"

/-- The values of a setting of a type. -/
abbrev Value : SettingType → Type
  | .whole => Int
  | .flag => Bool
  | .text => String

/-- The truth values have three spellings each, in capital or small letters. Only ASCII
letters stand for one another, since no other letter has a small form that occurs in
these words. -/
def readFlag? (text : String) : Option Bool :=
  let word := String.ofList
    (Text.trimList Text.isBlank (text.toList.map Char.toLower))
  if ["true", "1", "yes"].contains word then some true
  else if ["false", "0", "no"].contains word then some false
  else none

def read? : (type : SettingType) → String → Option type.Value
  | .whole, content => Text.readInt? content
  | .flag, content => readFlag? content
  | .text, content => some content

def toJson : (type : SettingType) → type.Value → Json
  | .whole, value => .int value
  | .flag, value => .bool value
  | .text, value => .str value

/-- Converts the text of a variable. The default stands in where there is no text, or none
that can be read. Whoever converts says in which form values are wanted. -/
def convert {α : Type} (type : SettingType) (form : type.Value → α) (default : α)
    (content : Option String) : α :=
  ((content.bind type.read?).map form).getD default

end SettingType

inductive Category where
  | layout
  | debug
  deriving DecidableEq

namespace Category

def name : Category → String
  | .layout => "layout"
  | .debug => "debug"

def all : List Category := [.layout, .debug]

end Category

inductive Setting where
  | width
  | indent
  | verifyChoices
  | logLevel
  deriving DecidableEq

namespace Setting

/-- All settings, in the order of listings. -/
def all : List Setting := [.width, .indent, .verifyChoices, .logLevel]

/-- A short name. -/
def name : Setting → String
  | .width => "WIDTH"
  | .indent => "INDENT"
  | .verifyChoices => "VERIFY_CHOICES"
  | .logLevel => "LOG_LEVEL"

/-- The environment variable. -/
def variableName (setting : Setting) : String := "PRETTYFIT_" ++ setting.name

abbrev type : Setting → SettingType
  | .width => .whole
  | .indent => .whole
  | .verifyChoices => .flag
  | .logLevel => .text

def default : (setting : Setting) → setting.type.Value
  | .width => (80 : Int)
  | .indent => (2 : Int)
  | .verifyChoices => false
  | .logLevel => "WARNING"

def description : Setting → String
  | .width => "Default target line width in columns"
  | .indent => "Indentation step used by the S-expression formatter"
  | .verifyChoices => "Check that both branches of every choice flatten alike"
  | .logLevel => "Log level used by the command line (DEBUG, INFO, ...)"

def category : Setting → Category
  | .width | .indent => .layout
  | .verifyChoices | .logLevel => .debug

def named? (name : String) : Option Setting := all.find? fun setting => setting.name == name

/-- The settings of some categories. -/
def listed (categories : List Category) : List Setting :=
  all.filter fun setting => setting.category ∈ categories

/-- The value that a setting has when its variable holds the given text. -/
def ofText (setting : Setting) (text : Option String) : setting.type.Value :=
  setting.type.convert id setting.default text

end Setting

/-- The environment variables that are set. -/
structure Environment where
  entries : List (String × String)
  deriving DecidableEq

namespace Environment

def empty : Environment := ⟨[]⟩

def get? (environment : Environment) (name : String) : Option String :=
  (environment.entries.find? fun entry => entry.1 == name).map Prod.snd

def unset (environment : Environment) (name : String) : Environment :=
  ⟨environment.entries.filter fun entry => entry.1 != name⟩

/-- Sets a variable, or unsets it when there is no value. -/
def put (environment : Environment) (name : String) (value : Option String) : Environment :=
  let others := environment.unset name
  match value with
  | none => others
  | some text => ⟨(name, text) :: others.entries⟩

def setting (environment : Environment) (setting : Setting) : setting.type.Value :=
  setting.ofText (environment.get? setting.variableName)

/-- What the caller gives, as it is, or else the value of the setting. -/
def settingOr {α : Type} (environment : Environment) (setting : Setting)
    (form : setting.type.Value → α) (given : Option α) : α :=
  given.getD (form (environment.setting setting))

/-- The width for which a text is laid out. -/
def width (environment : Environment) (given : Option Int) : Int :=
  environment.settingOr .width id given

theorem get_put (environment : Environment) (name other : String) (value : Option String) :
    (environment.put name value).get? other =
      if other = name then value else environment.get? other := by
  have kept : (environment.unset name).get? other =
      if other = name then none else environment.get? other := by
    simp only [get?, unset, List.find?_filter]
    split
    · rename_i same
      subst same
      simp only [Option.map_eq_none_iff, List.find?_eq_none]
      intro entry _ both
      simp at both
    · rename_i different
      congr 1
      congr 1
      funext entry
      by_cases here : entry.1 = other
      · simp [here, different]
      · simp [here]
  cases value with
  | none => simpa [put] using kept
  | some text =>
      by_cases same : name = other
      · simp [put, get?, same]
      · have skip : (name == other) = false := by simpa using same
        rw [if_neg (Ne.symm same)] at kept ⊢
        simpa [put, get?, skip] using kept

end Environment

end Typeset

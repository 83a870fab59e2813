import Typeset.CommandLine.Misuse
import Typeset.Text.Digit

/-!
The arguments that a command takes. Options may stand anywhere and be shortened as long
as that leaves no doubt. A value stands in the same argument as its option or in the
next one. All other arguments are taken in order by the rules for plain arguments.
-/

set_option autoImplicit false

namespace Typeset.CommandLine

/-- What an option does to the values that were read so far. An option that takes a
value is cleared when the separator is given in place of one. -/
inductive OptionAction (Values : Type) where
  | help
  | flag (set : Values → Values)
  | value (read : String → Except ValueProblem (Values → Values)) (clear : Values → Values)

structure OptionRule (Values : Type) where
  spellings : List String
  action : OptionAction Values

/-- A rule for a plain argument. One that is not required keeps its default. Rules for
required arguments come first. -/
structure PlainRule (Values : Type) where
  name : String
  required : Bool
  store : String → Values → Values

structure Grammar (Values : Type) where
  options : List (OptionRule Values)
  plain : List (PlainRule Values)

/-- Why reading the arguments came to an end. -/
inductive Interruption where
  | help
  | misuse (misuse : Misuse)
  deriving DecidableEq, Repr

/-- An option as it was used: the value is the one in the same argument. -/
structure OptionUse (Values : Type) where
  rule : OptionRule Values
  spelling : String
  value : Option String

/-- An argument and what it looks like. Everything after a separator is plain. -/
inductive Word (Values : Type) where
  | plain (content : String)
  | separator
  | option (use : OptionUse Values)
  | unknown (content : String)

def separatorText : String := "--"

variable {Values : Type}

namespace OptionRule

/-- The option in a message. -/
def label (rule : OptionRule Values) : String := String.intercalate "/" rule.spellings

def takesValue (rule : OptionRule Values) : Bool :=
  match rule.action with
  | .value _ _ => true
  | _ => false

end OptionRule

namespace Word

def isSeparator : Word Values → Bool
  | .separator => true
  | _ => false

/-- Whether the argument has the form of an option. -/
def isOption : Word Values → Bool
  | .option _ | .unknown _ => true
  | _ => false

def written : Word Values → String
  | .plain content | .unknown content => content
  | .separator => separatorText
  | .option use => use.spelling

end Word

/-- The parts before and after the first equals sign. -/
def splitValue? (text : List Char) : Option (String × String) :=
  match text.span (· != '=') with
  | (_, []) => none
  | (before, _ :: after) => some (String.ofList before, String.ofList after)

/-- A minus sign and digits, perhaps with a point among them but not at the end. A line
feed at the end is no harm. -/
def isNegativeNumber (text : List Char) : Bool :=
  match text with
  | '-' :: size =>
      let size := if size.getLast? = some '\n' then size.dropLast else size
      let isDigit := fun c => (Text.digitValue? c).isSome
      match size.dropWhile isDigit with
      | [] => !size.isEmpty
      | '.' :: fraction => !fraction.isEmpty && fraction.all isDigit
      | _ => false
  | _ => false

namespace Grammar

/-- Asks for help. Every command has this option. -/
def helpRule : OptionRule Values where
  spellings := ["-h", "--help"]
  action := .help

/-- All spellings of options with their rules. -/
def spellings (grammar : Grammar Values) : List (String × OptionRule Values) :=
  (helpRule :: grammar.options).flatMap fun rule =>
    rule.spellings.map fun spelling => (spelling, rule)

def spelled? (grammar : Grammar Values) (spelling : String) : Option (OptionRule Values) :=
  (grammar.spellings.find? fun entry => entry.1 == spelling).map Prod.snd

/-- The options that an argument may stand for when it is none as it stands. A long
option may be shortened, and a short one be followed by its value at once. -/
def candidates (grammar : Grammar Values) (text : String) : List (OptionUse Values) :=
  match text.toList with
  | '-' :: '-' :: _ =>
      let (start, value) := match splitValue? text.toList with
        | some (before, after) => (before, some after)
        | none => (text, none)
      (grammar.spellings.filter fun entry => start.toList.isPrefixOf entry.1.toList).map
        fun entry => ⟨entry.2, entry.1, value⟩
  | '-' :: letter :: value =>
      (grammar.spellings.filter fun entry => entry.1.toList == ['-', letter]).map
        fun entry => ⟨entry.2, entry.1, some (String.ofList value)⟩
  | _ => []

/-- What an argument before any separator looks like. -/
def classify (grammar : Grammar Values) (text : String) : Except Misuse (Word Values) :=
  match text.toList with
  | '-' :: _ :: _ =>
      match grammar.spelled? text with
      | some rule => .ok (.option ⟨rule, text, none⟩)
      | none =>
          let assigned := (splitValue? text.toList).bind fun (spelling, value) =>
            (grammar.spelled? spelling).map fun rule => OptionUse.mk rule spelling (some value)
          match assigned with
          | some use => .ok (.option use)
          | none =>
              match grammar.candidates text with
              | [use] => .ok (.option use)
              | [] =>
                  if isNegativeNumber text.toList || text.toList.contains ' ' then
                    .ok (.plain text)
                  else .ok (.unknown text)
              | several => .error (.ambiguous text (several.map OptionUse.spelling))
  | _ => .ok (.plain text)

def words (grammar : Grammar Values) : List String → Except Misuse (List (Word Values))
  | [] => .ok []
  | argument :: rest =>
      if argument = separatorText then .ok (.separator :: rest.map .plain)
      else do
        let word ← grammar.classify argument
        return word :: (← words grammar rest)

end Grammar

/-- How far the arguments were read: the values so far, the rules for plain arguments
that are still to be used, and the arguments that no rule takes. -/
structure Reading (Values : Type) where
  values : Values
  waiting : List (PlainRule Values)
  extras : List String

/-- Lets the rules take plain arguments from the front, each one with the separators
around it. A rule that is not required also takes nothing at all. A text that spells the
separator counts only where the separator itself stands before it. -/
def takePlain : List (PlainRule Values) → List (Word Values) → Values →
    Values × List (PlainRule Values) × List (Word Values)
  | [], words, values => (values, [], words)
  | rule :: rules, words, values =>
      let start := words.dropWhile Word.isSeparator
      match start with
      | .plain content :: rest =>
          let separated := start.length < words.length
          let values :=
            if content = separatorText ∧ ¬separated then values else rule.store content values
          takePlain rules (rest.dropWhile Word.isSeparator) values
      | _ =>
          if rule.required then (values, rule :: rules, words)
          else takePlain rules start values

/-- An option with the value that it is given. -/
structure OptionCall (Values : Type) where
  rule : OptionRule Values
  value : Option String

/-- The call of an option that takes a value. It may be the next argument. -/
def callWithValue (rule : OptionRule Values) (value : Option String)
    (following : List (Word Values)) :
    Except Misuse (OptionCall Values × List (Word Values)) :=
  match value, following with
  | some _, _ => .ok (⟨rule, value⟩, following)
  | none, .plain content :: rest => .ok (⟨rule, some content⟩, rest)
  | none, _ => .error (.valueMissing rule.label)

/-- The calls that an argument stands for, and the arguments after those that they take.
What follows a short option without a value is a row of further short options. -/
def Grammar.calls (grammar : Grammar Values) (following : List (Word Values))
    (rule : OptionRule Values) (isShort : Bool) (attached : Option (List Char)) :
    Except Misuse (List (OptionCall Values) × List (Word Values)) :=
  if rule.takesValue then
    (callWithValue rule (attached.map String.ofList) following).map fun (call, rest) =>
      ([call], rest)
  else match attached with
    | none => .ok ([⟨rule, none⟩], following)
    | some [] => .error (.valueIgnored rule.label "")
    | some (letter :: letters) =>
        let next? := if isShort then grammar.spelled? (String.ofList ['-', letter]) else none
        match next? with
        | none => .error (.valueIgnored rule.label (String.ofList (letter :: letters)))
        | some next =>
            let further := if letters.isEmpty then none else some letters
            (grammar.calls following next true further).map fun (calls, rest) =>
              (⟨rule, none⟩ :: calls, rest)
termination_by (attached.map fun letters => letters.length + 1).getD 0
decreasing_by
  split <;> simp

def Grammar.callsOfUse (grammar : Grammar Values) (use : OptionUse Values)
    (following : List (Word Values)) :
    Except Misuse (List (OptionCall Values) × List (Word Values)) :=
  let isShort := !use.spelling.startsWith "--"
  grammar.calls following use.rule isShort (use.value.map String.toList)

/-- Carries a call out. -/
def OptionCall.apply (call : OptionCall Values) (values : Values) :
    Except Interruption Values :=
  match call.rule.action, call.value with
  | .help, _ => .error .help
  | .flag set, _ => .ok (set values)
  | .value _ _, none => .error (.misuse (.valueMissing call.rule.label))
  | .value read clear, some value =>
      if value = separatorText then .ok (clear values)
      else match read value with
        | .ok set => .ok (set values)
        | .error problem => .error (.misuse (.badValue call.rule.label problem))

theorem call_with_value_length
    {rule : OptionRule Values}
    {value : Option String}
    {following rest : List (Word Values)}
    {call : OptionCall Values}
    (called : callWithValue rule value following = .ok (call, rest)) :
    rest.length ≤ following.length := by
  unfold callWithValue at called
  split at called <;> cases called
  · exact Nat.le_refl _
  · simp

theorem Grammar.calls_length
    (grammar : Grammar Values)
    (following : List (Word Values))
    (rule : OptionRule Values)
    (isShort : Bool)
    (attached : Option (List Char))
    (calls : List (OptionCall Values))
    (rest : List (Word Values))
    (called : grammar.calls following rule isShort attached = .ok (calls, rest)) :
    rest.length ≤ following.length := by
  fun_induction Grammar.calls grammar following rule isShort attached generalizing calls rest with
  | case1 rule isShort attached takes =>
      cases with_ : callWithValue rule (attached.map String.ofList) following with
      | error misuse => simp [with_, Except.map] at called
      | ok result =>
          simp only [with_, Except.map, Except.ok.injEq, Prod.mk.injEq] at called
          exact called.2 ▸ call_with_value_length with_
  | case2 => 
      cases called
      exact Nat.le_refl _
  | case3 => cases called
  | case4 => cases called
  | case5 rule isShort takes letter letters next? next found further ih =>
      cases inner : grammar.calls following next true further with
      | error misuse => simp [inner, Except.map] at called
      | ok result =>
          simp only [inner, Except.map, Except.ok.injEq, Prod.mk.injEq] at called
          exact called.2 ▸ ih _ _ inner

/-- Takes plain arguments and options in turn. Before an option the rules for plain
arguments take what stands there, and after the last option what is left. -/
def Grammar.readWords (grammar : Grammar Values) (words : List (Word Values))
    (reading : Reading Values) : Except Interruption (Reading Values) :=
  if words.any Word.isOption then
    match words with
    | [] => .ok reading
    | .option use :: following =>
        match _called : grammar.callsOfUse use following with
        | .error misuse => .error (.misuse misuse)
        | .ok (calls, rest) => do
            let values ← calls.foldlM (fun values call => call.apply values) reading.values
            grammar.readWords rest { reading with values }
    | .unknown content :: rest =>
        grammar.readWords rest { reading with extras := reading.extras ++ [content] }
    | word :: following =>
        let (values, waiting, rest) :=
          takePlain reading.waiting (word :: following) reading.values
        if rest.length < following.length + 1 then
          grammar.readWords rest { reading with values, waiting }
        else
          grammar.readWords following
            { reading with values, waiting, extras := reading.extras ++ [word.written] }
  else
    let (values, waiting, rest) := takePlain reading.waiting words reading.values
    .ok { values, waiting, extras := reading.extras ++ rest.map Word.written }
termination_by words.length
decreasing_by
  · have := grammar.calls_length _ _ _ _ _ _ _called
    simp only [List.length_cons]
    omega
  · simp
  · simp only [List.length_cons]
    omega
  · simp

/-- Reads all arguments of a command, starting from the default values. -/
def Grammar.read (grammar : Grammar Values) (defaults : Values) (arguments : List String) :
    Except Interruption Values := do
  let words ← (grammar.words arguments).mapError .misuse
  let reading ← grammar.readWords words ⟨defaults, grammar.plain, []⟩
  let missing := reading.waiting.filter PlainRule.required
  if !missing.isEmpty then
    .error (.misuse (.argumentsMissing (missing.map PlainRule.name)))
  else if !reading.extras.isEmpty then .error (.misuse (.unrecognized reading.extras))
  else return reading.values

end Typeset.CommandLine

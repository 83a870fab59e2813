import Typeset.Proofs.Layout.Reading
import Typeset.Proofs.Text.Code
import Typeset.Proofs.Text.Numeral
import Typeset.Proofs.Text.Words
import Typeset.SExpr.Layout

/-!
The words of a printed expression. Parentheses are words of their own, wherever they stand, and
between operators and arguments there is always a gap. So the words of the text are those of the
expression, at every width, step and column. The expression can be told from them:
`Call.printed_alike`.
-/

set_option autoImplicit false

namespace Typeset

namespace SExpr

open Build

mutual

def words : SExpr → List String
  | .atom value => [toString value]
  | .call operator arguments => "(" :: operator.text :: (wordsAll arguments ++ [")"])

def wordsAll : List SExpr → List String
  | [] => []
  | argument :: rest => words argument ++ wordsAll rest

end

mutual

/-- The operators at every depth. -/
def operators : SExpr → List Name
  | .atom _ => []
  | .call operator arguments => operator :: operatorsAll arguments

def operatorsAll : List SExpr → List Name
  | [] => []
  | argument :: rest => operators argument ++ operatorsAll rest

end

theorem words_all_eq (arguments : List SExpr) : wordsAll arguments = arguments.flatMap words :=
  Text.all_eq_flat_map rfl (fun _ _ => rfl) arguments

theorem operators_all_eq (arguments : List SExpr) :
    operatorsAll arguments = arguments.flatMap operators :=
  Text.all_eq_flat_map rfl (fun _ _ => rfl) arguments

theorem words_of_call (operator : Name) (arguments : List SExpr) :
    words (.call operator arguments) =
      "(" :: operator.text :: (arguments.flatMap words ++ [")"]) := by
  rw [words, words_all_eq]

theorem forall_operators
    {holds : Name → Prop}
    {operator : Name}
    {arguments : List SExpr} :
    (∀ name ∈ (SExpr.call operator arguments).operators, holds name) ↔
      holds operator ∧ ∀ argument ∈ arguments, ∀ name ∈ argument.operators, holds name := by
  rw [operators, List.forall_mem_cons, operators_all_eq, List.forall_mem_flatMap]

def isParenthesis (c : Char) : Bool := c == '(' || c == ')'

def reading : Text.Reading String := Text.words isParenthesis

/-- The name is one word, and has no parentheses. -/
def Whole (name : Name) : Prop :=
  ∀ c ∈ name.text.toList, Text.isGap c = false ∧ isParenthesis c = false

instance (name : Name) : Decidable (Whole name) :=
  List.decidableBAll _ name.text.toList

theorem operator_reads {name : Name} (whole : Whole name) :
    reading.ReadsAs name.text.toList [name.text] :=
  Text.word_reads name.nonempty (fun c member => (whole c member).1)
    fun c member => (whole c member).2

theorem gap_is_no_digit {c : Char} (gap : Text.isGap c = true) : c.isDigit = false := by
  rcases Text.gap_cases gap with rfl | rfl <;> rfl

theorem parenthesis_is_no_digit {c : Char} (mark : isParenthesis c = true) :
    c.isDigit = false := by
  simp only [isParenthesis, Bool.or_eq_true, beq_iff_eq] at mark
  rcases mark with rfl | rfl <;> rfl

theorem numeral_is_plain (value : Int) :
    ∀ c ∈ (toString value).toList, Text.isGap c = false ∧ isParenthesis c = false := by
  intro c member
  rcases Text.numeral_chars value c member with rfl | digit
  · exact ⟨rfl, rfl⟩
  · exact ⟨Text.excluded c (fun _ => gap_is_no_digit) digit,
      Text.excluded c (fun _ => parenthesis_is_no_digit) digit⟩

theorem atom_reads (value : Int) :
    reading.ReadsAs (toString value).toList [toString value] :=
  Text.word_reads (Text.numeral_ne_empty value)
    (fun c member => (numeral_is_plain value c member).1)
    fun c member => (numeral_is_plain value c member).2

theorem opening_closed : reading.Closed "(".toList ["("] :=
  Text.mark_closed rfl rfl

theorem closing_opens : reading.Opens ")".toList :=
  Text.mark_opens rfl

theorem closing_reads : reading.ReadsAs ")".toList [")"] :=
  (Text.mark_closed rfl rfl).reads_as

/-- An operator behind its parenthesis. -/
theorem head_reads {operator : Name} (whole : Whole operator) :
    reading.ReadsAs ("(" ++ operator.text).toList ["(", operator.text] := by
  rw [String.toList_append]
  exact opening_closed.append (operator_reads whole)

mutual

/-- The layout of an expression carries the words of the expression. -/
theorem layout_carries
    (step : Int)
    (expr : SExpr)
    (whole : ∀ name ∈ expr.operators, Whole name) :
    Steady (Layout.Carries reading expr.words) (expr.layout step) := by
  cases expr with
  | atom value => exact .pure ⟨trivial, Layout.text_reads (atom_reads value)⟩
  | call operator arguments =>
      obtain ⟨operatorWhole, argumentsWhole⟩ := forall_operators.mp whole
      have head := head_reads operatorWhole
      cases arguments with
      | nil =>
          have closed := head.append closing_reads closing_opens
          rw [← String.toList_append] at closed
          exact .pure ⟨trivial, Layout.text_reads closed⟩
      | cons first rest =>
          apply Steady.bind (Layout.stack_carries
            (layout_items_carry step (first :: rest) argumentsWhole))
          intro body carries
          have inner := carries.reads.behind_break.indent step
          have opened : (Layout.concat (.text ("(" ++ operator.text))
              (.indent step (.concat .lineBreak body))).Carries reading _ :=
            ⟨⟨trivial, trivial, carries.clean⟩,
              (Layout.text_reads head).concat inner (Layout.block_opens step body)⟩
          apply Steady.bind opened.group
          rintro grouped ⟨groupedCarries, -⟩
          have closed := groupedCarries.group_closed_up closing_reads closing_opens
          rw [words_of_call, List.flatMap_def]
          exact closed

theorem layout_items_carry
    (step : Int)
    (arguments : List SExpr)
    (whole : ∀ argument ∈ arguments, ∀ name ∈ argument.operators, Whole name) :
    Layout.ItemsHold (Layout.Carries reading) (layoutItems step arguments) (arguments.map words) := by
  cases arguments with
  | nil => exact .nil
  | cons first rest =>
      obtain ⟨firstWhole, restWhole⟩ := List.forall_mem_cons.mp whole
      exact .cons (layout_carries step first firstWhole) (layout_items_carry step rest restWhole)

end

theorem parentheses_differ : "(" ≠ ")" := by decide

/-- A numeral has no parentheses. -/
theorem numeral_ne_parenthesis
    (value : Int)
    {word : String}
    (marked : ∃ c ∈ word.toList, isParenthesis c = true) :
    toString value ≠ word := by
  rintro rfl
  obtain ⟨c, member, mark⟩ := marked
  have plain := (numeral_is_plain value c member).2
  rw [mark] at plain
  cases plain

theorem words_begin (expr : SExpr) : ∃ word rest, expr.words = word :: rest ∧ word ≠ ")" := by
  cases expr with
  | atom value => exact ⟨toString value, [], rfl, numeral_ne_parenthesis value ⟨')', .head _, rfl⟩⟩
  | call operator arguments => exact ⟨"(", _, rfl, parentheses_differ⟩

/-- Only a closing parenthesis does not begin an expression, and no expression goes on behind
its last word. -/
def code : Text.Code SExpr String where
  tokens := words
  valid _ := True
  starts word := word ≠ ")"
  more _ := False
  begins expr _ := expr.words_begin
  fresh _ _ := id

theorem closing_ends (rest : List String) : code.Ends (")" :: rest) := by
  have noExpr : ¬code.starts ")" := fun starts => starts rfl
  exact Text.Code.ends_cons noExpr id rest

theorem atom_ne_call
    (value : Int)
    (operator : Name)
    (arguments : List SExpr)
    (before after : List String) :
    words (.atom value) ++ before ≠ words (.call operator arguments) ++ after := by
  intro same
  rw [words, words_of_call] at same
  exact numeral_ne_parenthesis value ⟨'(', .head _, rfl⟩ (List.cons.inj same).1

mutual

theorem determined (expr : SExpr) : code.Determines expr := by
  intro other before after _ _ _ same
  change words _ ++ before = words _ ++ after at same
  cases expr with
  | atom value =>
      cases other with
      | atom otherValue =>
          obtain ⟨numeral, following⟩ := List.cons.inj same
          exact ⟨by rw [Text.numeral_inj numeral], following⟩
      | call operator arguments => exact absurd same (atom_ne_call _ _ _ _ _)
  | call operator arguments =>
      cases other with
      | atom value => exact absurd same.symm (atom_ne_call _ _ _ _ _)
      | call otherOperator others =>
          simp only [words_of_call, List.cons_append, List.append_assoc, List.cons.injEq,
            true_and, List.nil_append] at same
          obtain ⟨text, following⟩ := same
          obtain ⟨list, behind⟩ := code.items_determined (arguments_determined arguments)
            (fun _ _ => trivial) (fun _ _ => trivial) (closing_ends before) (closing_ends after)
            following
          rw [Name.eq_of_text text, list]
          exact ⟨rfl, (List.cons.inj behind).2⟩

theorem arguments_determined (arguments : List SExpr) :
    ∀ argument ∈ arguments, code.Determines argument := by
  cases arguments with
  | nil =>
      intro argument member
      cases member
  | cons first rest =>
      exact List.forall_mem_cons.mpr ⟨determined first, arguments_determined rest⟩

end

end SExpr

namespace Call

open SExpr (Whole)

/-- Two calls whose operators are single words are printed alike, at whatever steps, widths and
columns, only if they are one call. -/
theorem printed_alike
    (call other : Call)
    (whole : ∀ name ∈ call.toExpr.operators, Whole name)
    (otherWhole : ∀ name ∈ other.toExpr.operators, Whole name)
    (step otherStep width otherWidth column otherColumn : Int) :
    ∃ text otherText,
      (Action.pretty (.described (call.layout step)) width column).Yields text ∧
      (Action.pretty (.described (other.layout otherStep)) otherWidth otherColumn).Yields
        otherText ∧
      (text = otherText → call = other) := by
  obtain ⟨text, otherText, yields, otherYields, alike⟩ := Action.pretty_tells_apart
    (SExpr.layout_carries step call.toExpr whole)
    (SExpr.layout_carries otherStep other.toExpr otherWhole) width column otherWidth otherColumn
  refine ⟨text, otherText, yields, otherYields, ?_⟩
  intro same
  have words : SExpr.code.tokens call.toExpr = SExpr.code.tokens other.toExpr := alike same
  have exprs := (SExpr.determined call.toExpr).eq trivial words
  obtain ⟨operator, arguments⟩ := call
  obtain ⟨otherOperator, otherArguments⟩ := other
  cases exprs
  rfl

/-- A call with a nested one among numbers. -/
def nested : Call where
  operator := { text := "plus" }
  arguments := [.call { text := "negate" } [.atom (-1)], .atom 2]

/-- The same numbers, all in the nested call. -/
def gathered : Call where
  operator := { text := "plus" }
  arguments := [.call { text := "negate" } [.atom (-1), .atom 2]]

/-- Only the place of a parenthesis differs, and it shows at any widths and steps. -/
theorem nested_and_gathered_differ :
    (∀ name ∈ nested.toExpr.operators, Whole name) ∧
      (∀ name ∈ gathered.toExpr.operators, Whole name) ∧
      ∃ text other, (Action.pretty (.described (nested.layout (-2))) 8 3).Yields text ∧
        (Action.pretty (.described (gathered.layout 4)) 30 0).Yields other ∧ text ≠ other := by
  have nestedWhole : ∀ name ∈ nested.toExpr.operators, Whole name := by decide
  have gatheredWhole : ∀ name ∈ gathered.toExpr.operators, Whole name := by decide
  obtain ⟨text, other, yields, otherYields, alike⟩ :=
    printed_alike nested gathered nestedWhole gatheredWhole (-2) 4 8 30 3 0
  refine ⟨nestedWhole, gatheredWhole, text, other, yields, otherYields, ?_⟩
  intro same
  have lengths := congrArg (fun call => call.arguments.length) (alike same)
  cases lengths

end Call

end Typeset

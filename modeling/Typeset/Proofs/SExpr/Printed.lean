import Typeset.Proofs.Layout.Steady
import Typeset.Proofs.Resolution.LineEnd
import Typeset.Proofs.Session.Outcome
import Typeset.SExpr.Layout

/-!
The text of an expression, said by recursion. A call stands on one line where it fits. If only
its closing parenthesis is too much, that one moves to the next line. Else the arguments are
written below the operator, each as it would be written alone at its column. The layout of a
call has two groups with different separators, and both decide at the end of a line, so neither
sees the siblings of the call: `Call.prints_recursively`.
-/

set_option autoImplicit false

namespace Typeset

namespace SExpr

open Build

/-- A call on one line, without the parenthesis that closes it. -/
def unclosed (operator : Name) (arguments : List String) : String :=
  "(" ++ operator.text ++ " " ++ String.intercalate " " arguments

mutual

/-- The expression on one line. -/
def flat : SExpr → String
  | .atom value => toString value
  | .call operator [] => "(" ++ operator.text ++ ")"
  | .call operator (first :: rest) => unclosed operator (flatAll (first :: rest)) ++ ")"

def flatAll : List SExpr → List String
  | [] => []
  | argument :: rest => flat argument :: flatAll rest

end

mutual

/-- The expression printed for a width. It starts at the column, and the lines after its first
one are indented by `indent` and more. -/
def printed (step width indent column : Int) : SExpr → String
  | .atom value => toString value
  | .call operator [] => "(" ++ operator.text ++ ")"
  | .call operator (first :: rest) =>
      let whole := flat (.call operator (first :: rest))
      let short := unclosed operator (flatAll (first :: rest))
      if column + whole.length ≤ width then whole
      else if column + whole.length - 1 ≤ width then short ++ "\n" ++ margin indent ++ ")"
      else "(" ++ operator.text ++ printedBelow step width (indent + step) (first :: rest) ++
        "\n" ++ margin indent ++ ")"

/-- The expressions, each on a line of its own. -/
def printedBelow (step width indent : Int) : List SExpr → String
  | [] => ""
  | argument :: rest =>
      "\n" ++ margin indent ++ printed step width indent indent argument ++
        printedBelow step width indent rest

end

/-- Expressions on lines of their own, the first one behind what stands on its line. -/
def printedStack (step width indent column : Int) : List SExpr → String
  | [] => ""
  | first :: rest =>
      printed step width indent column first ++ printedBelow step width indent rest

theorem printed_below_append
    (step width indent : Int)
    (before after : List SExpr) :
    printedBelow step width indent (before ++ after) =
      printedBelow step width indent before ++ printedBelow step width indent after := by
  induction before with
  | nil => simp [printedBelow]
  | cons argument rest ih => simp only [List.cons_append, printedBelow, ih, String.append_assoc]

theorem flat_all_append (before after : List SExpr) :
    flatAll (before ++ after) = flatAll before ++ flatAll after := by
  induction before with
  | nil => rfl
  | cons argument rest ih => simp only [List.cons_append, flatAll, ih]

/-- The layout is flattened and written as the expression is. -/
structure Written (step : Int) (expr : SExpr) (layout : Layout) : Prop where
  clean : layout.Clean
  flattens : ∀ separator, Layout.flatText separator layout = .ok (flat expr)
  writes : ∀ width, layout.Writes width fun indent column =>
    printed step width indent column expr

/-- The layout is flattened and written as a stack of the expressions is. -/
structure Stacked (step : Int) (arguments : List SExpr) (layout : Layout) : Prop where
  some : ∃ first rest, arguments = first :: rest
  clean : layout.Clean
  flattens : Layout.flatText " " layout = .ok (String.intercalate " " (flatAll arguments))
  writes : ∀ width, layout.Writes width fun indent column =>
    printedStack step width indent column arguments

theorem Written.stacked
    {step : Int}
    {expr : SExpr}
    {layout : Layout}
    (written : Written step expr layout) :
    Stacked step [expr] layout where
  some := ⟨expr, [], rfl⟩
  clean := written.clean
  flattens := by
    rw [written.flattens, flatAll, flatAll, String.intercalate_singleton]
  writes := by
    intro width
    simpa only [printedStack, printedBelow, String.append_empty] using written.writes width

theorem Stacked.break_join
    {step : Int}
    {before after : List SExpr}
    {left right : Layout}
    (first : Stacked step before left)
    (second : Stacked step after right) :
    Stacked step (before ++ [] ++ after) (Layout.breakJoin left right) := by
  obtain ⟨head, others, rfl⟩ := first.some
  obtain ⟨next, later, rfl⟩ := second.some
  rw [List.append_nil]
  refine ⟨⟨head, others ++ next :: later, rfl⟩, ⟨first.clean, trivial, second.clean⟩, ?_, ?_⟩
  · rw [flat_all_append, String.intercalate_append_of_ne_nil (by simp [flatAll])
      (by simp [flatAll]), Layout.breakJoin, Layout.flat_text_concat, Layout.flat_text_concat,
      first.flattens, second.flattens, Layout.flat_text_line_break]
    simp only [bind, Except.bind, pure, Except.pure, String.append_assoc]
  · intro width
    have joined := (first.writes width).break_join (second.writes width)
    simpa only [printedStack, List.cons_append, printed_below_append, printedBelow,
      String.append_assoc] using joined

/-- The two groups of a call, one in the other. The outer one leaves the text of the inner one
with a break before the closing parenthesis. -/
theorem printed_call
    (step width indent column : Int)
    (operator : Name)
    (first : SExpr)
    (rest : List SExpr) :
    printed step width indent column (.call operator (first :: rest)) =
      let short := unclosed operator (flatAll (first :: rest))
      if column + (short ++ ")").length ≤ width then short ++ ")"
      else
        (if column + short.length ≤ width then short
          else "(" ++ operator.text ++ "\n" ++ margin (indent + step) ++
            printedStack step width (indent + step) (indent + step) (first :: rest)) ++
          "\n" ++ margin indent ++ ")" := by
  have closing (short : String) :
      column + ((short ++ ")").length : Int) - 1 ≤ width ↔ column + short.length ≤ width := by
    rw [String.length_append, show ")".length = 1 from rfl]
    omega
  simp only [printed, flat, closing, printedBelow, printedStack, String.append_assoc]
  split
  · rfl
  · split <;> simp only [String.append_assoc]

/-- Both groups of a call stand at the end of a line, the inner one because the break before
the closing parenthesis follows it. -/
theorem call_written
    {step : Int}
    {operator : Name}
    {first : SExpr}
    {rest : List SExpr}
    {arguments : Layout}
    (stacked : Stacked step (first :: rest) arguments) :
    Steady (Written step (.call operator (first :: rest))) (do
      let opened ← Layout.group (.concat (.text ("(" ++ operator.text))
        (.indent step (.concat .lineBreak arguments)))
      Layout.groupWith "" (Layout.breakJoin opened (.text ")"))) := by
  let broken : Layout :=
    .concat (.text ("(" ++ operator.text)) (.indent step (.concat .lineBreak arguments))
  let short := unclosed operator (flatAll (first :: rest))
  have brokenClean : broken.Clean := ⟨trivial, trivial, stacked.clean⟩
  have brokenText : Layout.flatText " " broken = .ok short := by
    simp only [broken, Layout.flat_text_concat, Layout.flat_text_indent, Layout.flat_text_text,
      Layout.flat_text_line_break, stacked.flattens]
    simp only [bind, Except.bind, pure, Except.pure, short, unclosed, String.append_assoc]
  obtain ⟨line, form, lineClean, lineText⟩ := Layout.flat_form_of_clean " " broken brokenClean
  have lineFlat := Layout.is_flat_of_flat_form " " broken line form
  have opened : (Layout.group broken).Gives (.choice line broken) :=
    (Layout.group_with_gives brokenClean form).2
  let closed := Layout.breakJoin (.choice line broken) (.text ")")
  have closedClean : closed.Clean := ⟨⟨lineClean, brokenClean⟩, trivial, trivial⟩
  have closedText : Layout.flatText "" closed = .ok (short ++ ")") := by
    simp only [closed, Layout.breakJoin, Layout.flat_text_concat, Layout.flat_text_choice,
      Layout.flat_text_text, Layout.flat_text_line_break, lineText, brokenText]
    simp only [bind, Except.bind, pure, Except.pure, String.empty_append]
  obtain ⟨whole, wholeForm, wholeClean, wholeText⟩ :=
    Layout.flat_form_of_clean "" closed closedClean
  have wholeFlat := Layout.is_flat_of_flat_form "" closed whole wholeForm
  refine ⟨.choice whole closed, ⟨⟨wholeClean, closedClean⟩, ?_, ?_⟩,
    opened.bind (Layout.group_with_gives closedClean wholeForm).2⟩
  · intro separator
    rw [Layout.flat_text_choice, wholeText, closedText, flat]
  · intro width
    have inner := (Layout.Writes.block ("(" ++ operator.text) step (stacked.writes width)).group
      lineFlat ((lineText " ").trans brokenText)
    have outer := (inner.break_join (.text ")")).group wholeFlat
      ((wholeText " ").trans closedText)
    simpa only [printed_call] using outer

mutual

theorem layout_written (step : Int) (expr : SExpr) :
    Steady (Written step expr) (expr.layout step) := by
  cases expr with
  | atom value => exact .pure ⟨trivial, fun _ => Layout.flat_text_text _, fun _ => .text _⟩
  | call operator arguments =>
      cases arguments with
      | nil => exact .pure ⟨trivial, fun _ => Layout.flat_text_text _, fun _ => .text _⟩
      | cons first rest =>
          have start : Steady (Stacked step [first]) (Item.described (first.layout step)).toLayout :=
            (layout_written step first).mono fun _ => Written.stacked
          have gathered := Layout.fold_gathers
            (fun _ _ _ _ before after => .pure (before.break_join after)) start
            (layout_items_written step rest)
          rw [List.flatMap_map] at gathered
          simp only [List.nil_append, List.flatMap_singleton', List.singleton_append] at gathered
          exact Steady.bind gathered fun _ => call_written

theorem layout_items_written (step : Int) (arguments : List SExpr) :
    Layout.ItemsHold (Stacked step) (layoutItems step arguments) (arguments.map ([·])) := by
  cases arguments with
  | nil => exact .nil
  | cons first rest =>
      exact .cons ((layout_written step first).mono fun _ => Written.stacked)
        (layout_items_written step rest)

end

end SExpr

/-- The text of a call is that of the recursive printer, whatever the session is. -/
theorem Call.prints_recursively (call : Call) (step width column : Int) :
    (Action.pretty (.described (call.layout step)) width column).Yields
      (SExpr.printed step width 0 column call.toExpr) := by
  obtain ⟨layout, written, given⟩ := SExpr.layout_written step call.toExpr
  apply Action.pretty_yields _ ((written.writes width).pretty written.clean column)
  exact given

/-- Nine columns are enough for the whole call, and eight for all but its last parenthesis. -/
example : List.map
    (fun width => SExpr.printed 2 width 0 0 (.call { text := "add" } [.atom 1, .atom 2]))
    [9, 8, 5] = ["(add 1 2)", "(add 1 2\n)", "(add\n  1\n  2\n)"] := by
  decide +kernel

end Typeset

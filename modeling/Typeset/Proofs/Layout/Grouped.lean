import Typeset.Proofs.Layout.SingleLine
import Typeset.Proofs.Layout.Steady
import Typeset.Proofs.Resolution.Breaks

/-!
Groups at the end of a line, alone or before a break of their own. A group is its single-line text
exactly if that fits, however its layout is made up, and else what its layout would be without the
group: `group_is_flat_or_absent`. So a bracket has two shapes, one line or three parts, and what it
encloses is laid out as if it stood alone: `enclosed_in_two_shapes`.
-/

set_option autoImplicit false

namespace Typeset.Layout

open Build

/-- A group that stands alone is the texts of its single-line form if they fit, and else its layout
is resolved as if it were no group. -/
theorem resolve_group
    {separator text : String}
    {layout : Layout}
    (clean : layout.Clean)
    (flatten : flatText separator layout = .ok text) :
    ∃ grouped, ∃ contents : List String,
      (groupWith separator layout).Gives grouped ∧ String.join contents = text ∧
        ∀ width column, (grouped.resolve width column).all =
          if column + text.length ≤ width then ⟨contents.map .text, none⟩
          else (layout.resolve width column).all := by
  obtain ⟨flat, form, flatClean, sameText⟩ := flat_form_of_clean separator layout clean
  obtain ⟨tokens, unbroken, whole, decided⟩ :=
    greedy_group (is_flat_of_flat_form separator layout flat form) ((sameText " ").trans flatten)
  obtain ⟨contents, rfl⟩ := Token.texts_of_unbroken tokens unbroken
  refine ⟨.choice flat layout, contents, (group_with_gives clean form).2,
    (Token.render_texts contents).symm.trans whole, ?_⟩
  intro width column
  have grouped : (Layout.choice flat layout).Clean := ⟨flatClean, clean⟩
  have alone := decided width column 0 layout (Queue.ends_line_nil width)
  rw [resolve, resolve, Queue.resolve_all_eq width column _ (Queue.clean_singleton 0 clean),
    Queue.resolve_all_eq width column _ (Queue.clean_singleton 0 grouped), alone,
    List.append_nil]
  split
  · rfl
  · rfl

theorem pretty_of_resolved_group
    {width column : Int}
    {text : String}
    {layout grouped : Layout}
    {contents : List String}
    (joined : String.join contents = text)
    (resolved : (grouped.resolve width column).all =
      if column + text.length ≤ width then ⟨contents.map .text, none⟩
      else (layout.resolve width column).all) :
    grouped.pretty width column =
      if column + text.length ≤ width then .ok text else layout.pretty width column := by
  split at resolved
  · rename_i fits
    rw [if_pos fits, pretty_of_all resolved, Token.render_texts, joined]
  · rename_i wide
    rw [if_neg wide, pretty, pretty, resolved]

/-- A group that stands alone is written as its single-line text if that fits, and else as if it
were no group. -/
theorem pretty_group
    {separator text : String}
    {layout : Layout}
    (clean : layout.Clean)
    (flatten : flatText separator layout = .ok text) :
    ∃ grouped, (groupWith separator layout).Gives grouped ∧
      ∀ width column, grouped.pretty width column =
        if column + text.length ≤ width then .ok text else layout.pretty width column := by
  obtain ⟨grouped, contents, given, joined, resolved⟩ := resolve_group clean flatten
  refine ⟨grouped, given, ?_⟩
  intro width column
  exact pretty_of_resolved_group joined (resolved width column)

/-- A group is its single-line text if that fits in the columns that are left, and else it is
written as if it were no group, both alone and before a break, whatever stands behind the break. -/
theorem group_is_flat_or_absent
    (separator : String)
    (layout : Layout)
    (clean : layout.Clean) :
    ∃ grouped text, (groupWith separator layout).Gives grouped ∧
      flatText separator layout = .ok text ∧
      ∀ width column,
        grouped.pretty width column =
          (if column + text.length ≤ width then .ok text else layout.pretty width column) ∧
        ∀ later : Layout,
          (column + text.length ≤ width → ∃ contents : List String,
            String.join contents = text ∧
              ((concat grouped (.concat .lineBreak later)).resolve width column).all =
                ⟨contents.map .text ++ .line 0 :: (later.resolve width 0).all.tokens,
                  (later.resolve width 0).all.fault⟩) ∧
          (width < column + text.length →
            ((concat grouped (.concat .lineBreak later)).resolve width column).all =
              ((concat layout (.concat .lineBreak later)).resolve width column).all) := by
  obtain ⟨text, flatten⟩ := flat_text_of_clean separator layout clean
  obtain ⟨grouped, contents, given, joined, resolved⟩ := resolve_group clean flatten
  refine ⟨grouped, text, given, flatten, ?_⟩
  intro width column
  have alone := resolved width column
  refine ⟨pretty_of_resolved_group joined alone, ?_⟩
  intro later
  have parted := Queue.resolve_break_join width column 0
  rw [resolve, resolve] at alone
  refine ⟨?_, ?_⟩
  · intro fits
    rw [if_pos fits] at alone
    refine ⟨contents, joined, (parted grouped later).trans ?_⟩
    rw [alone]
    rfl
  · intro wide
    rw [if_neg (Int.not_le.mpr wide)] at alone
    refine (parted grouped later).trans ?_
    rw [alone]
    exact (parted layout later).symm

/-- Thirteen columns are enough for the single line, and twelve are one too few. The stray behind
the break is met in either case, and changes nothing before it. -/
theorem look_ahead_group_at_threshold :
    (breakJoin lookAhead lookAhead).Clean ∧
      ∃ grouped, (groupWith ";" (breakJoin lookAhead lookAhead)).Gives grouped ∧
        grouped.pretty 13 2 = .ok "a bcd;a bcd" ∧
        grouped.pretty 12 2 = .ok "a bcd\na bcd" ∧
        ((concat grouped (.concat .lineBreak (.stray (.data .null)))).resolve 12 2).all =
          ⟨[.text "a", .text " ", .text "bc", .text "d", .line 0,
            .text "a", .text " ", .text "bc", .text "d", .line 0], some (.stray (.data .null))⟩ := by
  have clean : (breakJoin lookAhead lookAhead).Clean := by decide
  obtain ⟨grouped, text, given, flatten, decided⟩ :=
    group_is_flat_or_absent ";" (breakJoin lookAhead lookAhead) clean
  have line : flatText ";" (breakJoin lookAhead lookAhead) = .ok "a bcd;a bcd" := by
    simp only [flatText, writeFlat, breakJoin, lookAhead]
    rfl
  obtain rfl := Except.ok.inj (line.symm.trans flatten)
  have broken : ((breakJoin lookAhead lookAhead).resolve 12 2).all =
      ⟨[.text "a", .text " ", .text "bc", .text "d", .line 0,
        .text "a", .text " ", .text "bc", .text "d"], none⟩ := by decide +kernel
  have parted : ((concat (breakJoin lookAhead lookAhead)
      (.concat .lineBreak (.stray (.data .null)))).resolve 12 2).all =
      ⟨[.text "a", .text " ", .text "bc", .text "d", .line 0,
        .text "a", .text " ", .text "bc", .text "d", .line 0], some (.stray (.data .null))⟩ := by
    decide +kernel
  refine ⟨clean, grouped, given, (decided 13 2).1, ?_, ?_⟩
  · exact (decided 12 2).1.trans (pretty_of_all broken)
  · exact (((decided 12 2).2 _).2 (by decide)).trans parted

theorem margin_zero : margin 0 = "" := rfl

theorem pretty_alone (layout : Layout) (clean : layout.Clean) (width column : Int) :
    layout.pretty width column = .ok (Token.render (Queue.greedy width column [⟨0, layout⟩])) :=
  (Writes.alone width layout).pretty clean column

/-- The three parts of a bracket: the opening delimiter, an indented block and the closing one. -/
def brokenBracket (amount : Int) (left : String) (inner : Layout) (right : String) : Layout :=
  .concat (.text left) (breakJoin (.indent amount (.concat .lineBreak inner)) (.text right))

/-- Parentheses with the closing one on a line of its own. -/
def brokenParentheses (inner : Layout) : Layout :=
  .concat (.text "(") (breakJoin inner (.text ")"))

section

variable {inner : Layout} {width : Int} {text block : String}

theorem broken_bracket_clean (amount : Int) (left right : String) (clean : inner.Clean) :
    (brokenBracket amount left inner right).Clean :=
  ⟨trivial, ⟨trivial, clean⟩, trivial, trivial⟩

theorem flat_text_broken_bracket
    (amount : Int)
    (left right : String)
    (flatten : flatText " " inner = .ok text) :
    flatText " " (brokenBracket amount left inner right) =
      .ok (left ++ " " ++ text ++ " " ++ right) := by
  simp only [brokenBracket, breakJoin, flat_text_concat, flat_text_indent, flat_text_text,
    flat_text_line_break, flatten]
  simp only [bind, Except.bind, pure, Except.pure, String.append_assoc]

/-- The block is laid out as it is alone, starting at the column of its indentation. -/
theorem pretty_broken_bracket
    (amount : Int)
    (left right : String)
    (clean : inner.Clean)
    (printed : (indent amount inner).pretty width amount = .ok block)
    (column : Int) :
    (brokenBracket amount left inner right).pretty width column =
      .ok (left ++ "\n" ++ margin amount ++ block ++ "\n" ++ right) := by
  have alone := pretty_alone (indent amount inner) clean width amount
  rw [Queue.greedy, Int.zero_add, printed] at alone
  have parts :=
    (((Writes.alone width inner).below amount).break_join (.text right)).behind_text left
  have whole : (brokenBracket amount left inner right).pretty width column = _ :=
    parts.pretty (broken_bracket_clean amount left right clean) column
  simp only [Int.zero_add, ← Except.ok.inj alone, margin_zero, String.append_empty] at whole
  simpa only [String.append_assoc] using whole

theorem broken_parentheses_clean (clean : inner.Clean) : (brokenParentheses inner).Clean :=
  ⟨trivial, clean, trivial, trivial⟩

theorem flat_text_broken_parentheses (flatten : flatText "" inner = .ok text) :
    flatText "" (brokenParentheses inner) = .ok ("(" ++ text ++ ")") := by
  simp only [brokenParentheses, breakJoin, flat_text_concat, flat_text_text,
    flat_text_line_break, flatten]
  simp only [bind, Except.bind, pure, Except.pure, String.empty_append, String.append_assoc]

/-- What is enclosed is laid out as it is alone, starting behind the opening parenthesis. -/
theorem pretty_broken_parentheses
    {column : Int}
    (clean : inner.Clean)
    (printed : inner.pretty width (column + 1) = .ok block) :
    (brokenParentheses inner).pretty width column = .ok ("(" ++ block ++ "\n" ++ ")") := by
  have alone := pretty_alone inner clean width (column + 1)
  rw [printed] at alone
  have parts := ((Writes.alone width inner).break_join (.text ")")).behind_text "("
  have whole : (brokenParentheses inner).pretty width column = _ :=
    parts.pretty (broken_parentheses_clean clean) column
  have single : ("(".length : Int) = 1 := rfl
  simp only [single, ← Except.ok.inj alone, margin_zero, String.append_empty] at whole
  simpa only [String.append_assoc] using whole

end

/-- A bracket is its single line if that fits in the columns that are left. Else its delimiters
stand on lines of their own, and between them what it encloses as it is laid out alone at its
indentation. Parentheses are their single line if that fits. Else what they enclose is laid out
as it is alone behind the opening one, and the closing one stands on the next line. -/
theorem enclosed_in_two_shapes (body : Item) (steady : body.Steady) :
    ∃ inner, inner.Clean ∧ body.toLayout.Gives inner ∧
      (∀ amount left right, ∃ bracketed text,
        (bracket amount left body right).Gives bracketed ∧ flatText " " inner = .ok text ∧
        ∀ width column,
          let line := left ++ " " ++ text ++ " " ++ right
          bracketed.pretty width column =
            if column + line.length ≤ width then .ok line
            else do
              let block ← (indent amount inner).pretty width amount
              return left ++ "\n" ++ margin amount ++ block ++ "\n" ++ right) ∧
      ∃ closed text, (parenthesized body).Gives closed ∧ flatText "" inner = .ok text ∧
        ∀ width column,
          let line := "(" ++ text ++ ")"
          closed.pretty width column =
            if column + line.length ≤ width then .ok line
            else do
              let block ← inner.pretty width (column + 1)
              return "(" ++ block ++ "\n" ++ ")" := by
  obtain ⟨inner, clean, given⟩ := to_layout_steady body steady
  refine ⟨inner, clean, given, ?_, ?_⟩
  · intro amount left right
    obtain ⟨text, flatten⟩ := flat_text_of_clean " " inner clean
    obtain ⟨grouped, made, decided⟩ :=
      pretty_group (broken_bracket_clean amount left right clean)
        (flat_text_broken_bracket amount left right flatten)
    refine ⟨grouped, text, given.bind made, flatten, ?_⟩
    intro width column
    obtain ⟨block, printed⟩ := (indent amount inner).pretty_of_clean clean width amount
    have shape := decided width column
    rw [pretty_broken_bracket amount left right clean printed] at shape
    rw [printed]
    exact shape
  · obtain ⟨text, flatten⟩ := flat_text_of_clean "" inner clean
    obtain ⟨grouped, made, decided⟩ :=
      pretty_group (broken_parentheses_clean clean) (flat_text_broken_parentheses flatten)
    refine ⟨grouped, text, given.bind made, flatten, ?_⟩
    intro width column
    obtain ⟨block, printed⟩ := inner.pretty_of_clean clean width (column + 1)
    have shape := decided width column
    rw [pretty_broken_parentheses clean printed] at shape
    rw [printed]
    exact shape

/-- The body breaks at five columns, where the bracket is broken as well. At six, the parentheses
leave their body the five columns that it takes. -/
theorem look_ahead_enclosed :
    (Item.node lookAhead).Steady ∧
      (∃ bracketed, (bracket 2 "[" (.node lookAhead) "]").Gives bracketed ∧
        bracketed.pretty 9 0 = .ok "[ a bcd ]" ∧
        bracketed.pretty 5 0 = .ok "[\n  a\n  bcd\n]") ∧
      ∃ closed, (parenthesized (.node lookAhead)).Gives closed ∧
        closed.pretty 7 0 = .ok "(a bcd)" ∧ closed.pretty 6 0 = .ok "(a bcd\n)" := by
  have steady : (Item.node lookAhead).Steady := show lookAhead.Clean by decide
  obtain ⟨inner, _, given, brackets, closed, closedText, closedGiven, closedFlat, closedPrinted⟩ :=
    enclosed_in_two_shapes (.node lookAhead) steady
  obtain rfl : lookAhead = inner := Except.ok.inj (given false)
  obtain ⟨bracketed, text, bracketGiven, flatten, printed⟩ := brackets 2 "[" "]"
  have line (separator : String) : flatText separator lookAhead = .ok "a bcd" := by
    simp only [flatText, writeFlat, lookAhead]
    rfl
  obtain rfl := Except.ok.inj ((line " ").symm.trans flatten)
  obtain rfl := Except.ok.inj ((line "").symm.trans closedFlat)
  have block : ((indent 2 lookAhead).resolve 5 2).all =
      ⟨[.text "a", .line 2, .text "bc", .text "d"], none⟩ := by decide +kernel
  have behind : (lookAhead.resolve 6 (0 + 1)).all =
      ⟨[.text "a", .text " ", .text "bc", .text "d"], none⟩ := by decide +kernel
  refine ⟨steady, ⟨bracketed, bracketGiven, printed 9 0, ?_⟩,
    closed, closedGiven, closedPrinted 7 0, ?_⟩
  · have broken := printed 5 0
    rw [pretty_of_all block] at broken
    exact broken
  · have broken := closedPrinted 6 0
    rw [pretty_of_all behind] at broken
    exact broken

end Typeset.Layout

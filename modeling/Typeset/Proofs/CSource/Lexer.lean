import Typeset.CSource.Layout
import Typeset.Proofs.Text.Numeral
import Typeset.Proofs.Text.Reading

/-!
Lexemes of C source: words, whole numbers, string literals and marks. Gaps between lexemes do not
count. A word goes on for as long as it can, so it is told from its text only in front of another
character; a mark or a literal ends by itself.
-/

set_option autoImplicit false

namespace Typeset.CSource

inductive Lexeme where
  | word (name : String)
  | number (value : Int)
  | quoted (value : String)
  | mark (c : Char)
  deriving DecidableEq

def isMark (c : Char) : Bool := ['{', '}', '(', ')', ';', ',', '*', '='].contains c

def startsWord (c : Char) : Bool := c.isAlpha || c == '_'

def isWordChar (c : Char) : Bool := c.isAlphanum || c == '_'

/-- A letter or an underscore, and then letters, digits and underscores. -/
def isIdentifier (text : String) : Bool :=
  match text.toList with
  | [] => false
  | first :: rest => startsWord first && rest.all isWordChar

/-- The text of a string literal up to the quote that ends it, and what follows that quote. A
backslash stands before a character that is meant as it is. -/
def unquote : List Char → Option (List Char × List Char)
  | [] => none
  | '"' :: rest => some ([], rest)
  | '\\' :: c :: rest => (unquote rest).map fun read => (c :: read.1, read.2)
  | c :: rest => (unquote rest).map fun read => (c :: read.1, read.2)

theorem unquote_shorter
    {text value rest : List Char}
    (read : unquote text = some (value, rest)) :
    rest.length < text.length := by
  fun_induction unquote text generalizing value with
  | case1 => cases read
  | case2 others =>
      cases read
      exact Nat.lt_succ_self _
  | case3 c others ih =>
      obtain ⟨⟨inner, later⟩, found, same⟩ := Option.map_eq_some_iff.mp read
      cases same
      exact Nat.lt_succ_of_lt (Nat.lt_succ_of_lt (ih found))
  | case4 c others _ _ ih =>
      obtain ⟨⟨inner, later⟩, found, same⟩ := Option.map_eq_some_iff.mp read
      cases same
      exact Nat.lt_succ_of_lt (ih found)

/-- The lexeme that starts with the character, and what follows it. -/
def lexeme? (c : Char) (rest : List Char) : Option (Lexeme × List Char) :=
  if isMark c then some (.mark c, rest)
  else if startsWord c then
    some (.word (String.ofList (c :: rest.takeWhile isWordChar)), rest.dropWhile isWordChar)
  else if c = '"' then
    (unquote rest).map fun read => (.quoted (String.ofList read.1), read.2)
  else if c.isDigit then
    some (.number (Nat.ofDigitChars 10 (c :: rest.takeWhile Char.isDigit) 0),
      rest.dropWhile Char.isDigit)
  else if c = '-' ∧ rest.takeWhile Char.isDigit ≠ [] then
    some (.number (-Nat.ofDigitChars 10 (rest.takeWhile Char.isDigit) 0),
      rest.dropWhile Char.isDigit)
  else none

theorem lexeme_not_longer
    {c : Char}
    {rest others : List Char}
    {lexeme : Lexeme}
    (read : lexeme? c rest = some (lexeme, others)) :
    others.length ≤ rest.length := by
  unfold lexeme? at read
  split at read
  · cases read
    exact Nat.le_refl _
  split at read
  · cases read
    exact List.length_dropWhile_le _ _
  split at read
  · obtain ⟨⟨value, later⟩, found, same⟩ := Option.map_eq_some_iff.mp read
    cases same
    exact Nat.le_of_lt (unquote_shorter found)
  split at read
  · cases read
    exact List.length_dropWhile_le _ _
  split at read
  · cases read
    exact List.length_dropWhile_le _ _
  · cases read

/-- The lexemes of a text, if it consists of lexemes and gaps. -/
def lex : List Char → Option (List Lexeme)
  | [] => some []
  | c :: rest =>
      if Text.isGap c then lex rest
      else match _found : lexeme? c rest with
        | none => none
        | some (lexeme, others) => (lex others).map (lexeme :: ·)
termination_by text => text.length
decreasing_by
  · exact Nat.lt_succ_self _
  · exact Nat.lt_succ_of_le (lexeme_not_longer _found)

theorem lex_gap
    {c : Char}
    (rest : List Char)
    (gap : Text.isGap c = true) :
    lex (c :: rest) = lex rest := by
  rw [lex, if_pos gap]

theorem lex_lexeme
    {c : Char}
    {rest others : List Char}
    {lexeme : Lexeme}
    (visible : Text.isGap c = false)
    (read : lexeme? c rest = some (lexeme, others)) :
    lex (c :: rest) = (lex others).map (lexeme :: ·) := by
  rw [lex, if_neg (by rw [visible]; decide)]
  split
  · next none =>
      rw [read] at none
      cases none
  · next found =>
      rw [read] at found
      cases found
      rfl

theorem gap_is_no_word_char {c : Char} (gap : Text.isGap c = true) : isWordChar c = false := by
  rcases Text.gap_cases gap with rfl | rfl <;> rfl

/-- Reading a text as lexemes. A word ends in front of what is no part of words. -/
def reading : Text.Reading Lexeme where
  read := lex
  bounds c := !isWordChar c
  read_nil := by rw [lex]
  gap_bounds := by
    intro c gap
    rw [gap_is_no_word_char gap]
    rfl
  read_gap c rest gap := lex_gap rest gap

/-- What goes on up to where the next text ends it. -/
theorem bounded_ends
    {rest : List Char}
    (bounded : reading.Bounded rest) :
    ∀ c, rest.head? = some c → isWordChar c = false := by
  intro c first
  have bounds : (!isWordChar c) = true := bounded c first
  simpa using bounds

theorem mark_starts_no_word {c : Char} (mark : isMark c = true) : isWordChar c = false := by
  simp only [isMark, List.contains_eq_mem, List.mem_cons, List.not_mem_nil, or_false,
    decide_eq_true_eq] at mark
  rcases mark with rfl | rfl | rfl | rfl | rfl | rfl | rfl | rfl <;> rfl

theorem gap_is_no_mark {c : Char} (gap : Text.isGap c = true) : isMark c = false := by
  rcases Text.gap_cases gap with rfl | rfl <;> rfl

theorem mark_closed {c : Char} (mark : isMark c = true) : reading.Closed [c] [.mark c] := by
  intro rest
  have read : lexeme? c rest = some (.mark c, rest) := by
    rw [lexeme?, if_pos mark]
  exact lex_lexeme (Text.excluded c (fun _ => gap_is_no_mark) mark) read

theorem mark_opens {c : Char} (mark : isMark c = true) : reading.Opens [c] := by
  refine ⟨c, [], rfl, ?_⟩
  change (!isWordChar c) = true
  rw [mark_starts_no_word mark]
  rfl

theorem word_start_is_word_char {c : Char} (starts : startsWord c = true) :
    isWordChar c = true := by
  simp only [startsWord, isWordChar, Char.isAlphanum, Bool.or_eq_true] at starts ⊢
  exact starts.imp_left .inl

theorem word_char_is_no_mark {c : Char} (part : isWordChar c = true) : isMark c = false :=
  Text.excluded c (fun _ => mark_starts_no_word) part

theorem word_char_is_visible {c : Char} (part : isWordChar c = true) : Text.isGap c = false :=
  Text.excluded c (fun _ => gap_is_no_word_char) part

theorem digit_is_word_char {c : Char} (digit : c.isDigit = true) : isWordChar c = true := by
  rw [isWordChar, Char.isAlphanum, digit, Bool.or_true, Bool.true_or]

theorem identifier_reads {name : String} (identifier : isIdentifier name = true) :
    reading.ReadsAs name.toList [.word name] := by
  intro rest bounded
  rw [isIdentifier] at identifier
  cases form : name.toList with
  | nil =>
      rw [form] at identifier
      cases identifier
  | cons first others =>
      simp only [form, Bool.and_eq_true, List.all_eq_true] at identifier
      obtain ⟨starts, parts⟩ := identifier
      obtain ⟨taken, left⟩ := Text.span_append parts (bounded_ends bounded)
      have part := word_start_is_word_char starts
      have read : lexeme? first (others ++ rest) = some (.word name, rest) := by
        rw [lexeme?, if_neg (by rw [word_char_is_no_mark part]; decide), if_pos starts,
          taken, left, ← form, String.ofList_toList]
      exact lex_lexeme (word_char_is_visible part) read

theorem digit_starts_no_word {c : Char} (digit : c.isDigit = true) : startsWord c = false := by
  have upperCase : c.isUpper = decide ('A'.val ≤ c.val ∧ c.val ≤ 'Z'.val) := rfl
  have lowerCase : c.isLower = (decide ('a'.val ≤ c.val) && decide (c.val ≤ 'z'.val)) := rfl
  have letter : c.isAlpha = (c.isUpper || c.isLower) := rfl
  simp only [startsWord, letter, upperCase, lowerCase, Char.isDigit, Bool.and_eq_true,
    decide_eq_true_eq, Bool.or_eq_false_iff, Bool.and_eq_false_iff, decide_eq_false_iff_not,
    beq_eq_false_iff_ne, ge_iff_le, UInt32.le_iff_toNat_le] at digit ⊢
  have nine : '9'.val.toNat = 57 := rfl
  have upper : 'A'.val.toNat = 65 := rfl
  have underscore : '_'.val.toNat = 95 := rfl
  have lower : 'a'.val.toNat = 97 := rfl
  refine ⟨⟨?_, ?_⟩, ?_⟩
  · omega
  · omega
  · rintro rfl
    omega

theorem bounded_ends_digits
    {rest : List Char}
    (bounded : reading.Bounded rest) :
    ∀ c, rest.head? = some c → c.isDigit = false := by
  intro c first
  have noWord := bounded_ends bounded c first
  cases digit : c.isDigit with
  | false => rfl
  | true =>
      rw [digit_is_word_char digit] at noWord
      cases noWord

/-- The digits of a number, in front of what is no digit. -/
theorem digits_append
    (size : Nat)
    {rest : List Char}
    (bounded : reading.Bounded rest) :
    (Nat.toDigits 10 size ++ rest).takeWhile Char.isDigit = Nat.toDigits 10 size ∧
      (Nat.toDigits 10 size ++ rest).dropWhile Char.isDigit = rest :=
  Text.span_append (Text.digits_are_digits size) (bounded_ends_digits bounded)

theorem number_reads (value : Int) :
    reading.ReadsAs (toString value).toList [.number value] := by
  intro rest bounded
  cases value with
  | ofNat size =>
      obtain ⟨taken, left⟩ := digits_append size bounded
      rw [Text.numeral_of_nat]
      cases form : Nat.toDigits 10 size with
      | nil => exact absurd form Nat.toDigits_ne_nil
      | cons first others =>
          have digit : first.isDigit = true :=
            Text.digits_are_digits size first (by rw [form]; exact .head _)
          have part := digit_is_word_char digit
          have quote : first ≠ '"' := by
            rintro rfl
            cases digit
          rw [form, List.cons_append, List.takeWhile_cons_of_pos digit] at taken
          rw [form, List.cons_append, List.dropWhile_cons_of_pos digit] at left
          have read : lexeme? first (others ++ rest) = some (.number (Int.ofNat size), rest) := by
            rw [lexeme?, if_neg (by rw [word_char_is_no_mark part]; decide),
              if_neg (by rw [digit_starts_no_word digit]; decide), if_neg quote, if_pos digit,
              taken, left, ← form, Nat.ofDigitChars_ten_toDigits]
            rfl
          exact lex_lexeme (word_char_is_visible part) read
  | negSucc size =>
      obtain ⟨taken, left⟩ := digits_append (size + 1) bounded
      have read : lexeme? '-' (Nat.toDigits 10 (size + 1) ++ rest) =
          some (.number (Int.negSucc size), rest) := by
        rw [lexeme?, if_neg (by decide), if_neg (by decide), if_neg (by decide),
          if_neg (by decide), taken, left, if_pos ⟨rfl, Nat.toDigits_ne_nil⟩,
          Nat.ofDigitChars_ten_toDigits]
        rfl
      rw [Text.numeral_neg_succ]
      exact lex_lexeme rfl read

theorem unquote_escaped (value rest : List Char) :
    unquote (value.flatMap escapedChar ++ '"' :: rest) = some (value, rest) := by
  induction value with
  | nil => rfl
  | cons c others ih =>
      rw [List.flatMap_cons, List.append_assoc, escapedChar]
      split
      · next special =>
          change (unquote (others.flatMap escapedChar ++ '"' :: rest)).map _ = _
          rw [ih]
          rfl
      · next plain =>
          obtain ⟨backslash, quote⟩ := not_or.mp plain
          rw [List.singleton_append, unquote, ih]
          · rfl
          · exact quote
          · intro _ _ same _
            exact backslash same

theorem quoted_closed (value : String) :
    reading.Closed (quotedString value).toList [.quoted value] := by
  intro rest
  have read : lexeme? '"' (value.toList.flatMap escapedChar ++ '"' :: rest) =
      some (.quoted value, rest) := by
    rw [lexeme?, if_neg (by decide), if_neg (by decide), if_pos rfl, unquote_escaped]
    simp only [Option.map_some, String.ofList_toList]
  have found := lex_lexeme rfl read
  rw [quotedString, String.toList_ofList, List.cons_append, List.cons_append, List.append_assoc]
  exact found

end Typeset.CSource
